import Callisto.Paper.BookOrders

/-! The evidence of a book, decoded and read again: it is accepted, its levels are the same numbers, and its evidence is the same text. -/

namespace Callisto.Paper.Spelled

open Callisto.Library

variable {digits : DigitTable} {side : Outcome} {ranges : List PaperPriceRange} {levels : List PaperBookLevel} {level : PaperBookLevel}

def unitsEvidence (level : Paper.PaperBookLevel) : Except ProtocolError Json := do
  let price ← unitsText level.price priceScale
  let quantity ← unitsText level.quantity quantityScale
  .ok (.array [.string price, .string quantity])

theorem levelEvidence_sound (sound : level.Sound) : levelEvidence level = unitsEvidence level.units := by
  unfold levelEvidence unitsEvidence decimalString
  rw [sound.convert_price, sound.convert_quantity]
  rfl

theorem evidence_sound (sound : ∀ level ∈ levels, level.Sound) :
    levels.mapM levelEvidence = (levels.map PaperBookLevel.units).mapM unitsEvidence := by
  induction levels with
  | nil => rfl
  | cons level rest ih =>
    rw [List.mapM_cons, List.map_cons, List.mapM_cons, levelEvidence_sound (sound level List.mem_cons_self),
      ih fun other member => sound other (List.mem_cons_of_mem _ member)]

theorem checkTicks_sound (sound : ∀ level ∈ levels, level.Sound) :
    checkTicks ranges levels = .ok () ↔ ∀ level ∈ levels.map PaperBookLevel.units, priceIsOnTick level.price ranges = true := by
  induction levels with
  | nil => simp [checkTicks]
  | cons level rest ih =>
    rw [List.map_cons, List.forall_mem_cons, ← ih fun other member => sound other (List.mem_cons_of_mem _ member)]
    have converted := (sound level List.mem_cons_self).convert_price "book price"
    constructor
    · intro done
      obtain ⟨units, same, done⟩ := bind_ok.1 done
      cases converted.symm.trans same
      split at done
      · rename_i onTick
        exact ⟨onTick, done⟩
      · cases done
    · intro good
      refine bind_ok.2 ⟨_, converted, ?_⟩
      rw [if_pos good.1]
      exact good.2

theorem unitsText_ok {units : ℤ} {scale : ℕ} {text : String} (positive : 0 < units) (written : unitsText units scale = .ok text) :
    text = String.ofList (fixedText scale units.natAbs) := by
  obtain ⟨number, made, shown⟩ := map_ok written
  unfold fromScaledInt at made
  split at made
  · cases made
    rw [← shown]
    unfold formatFixed
    rw [decide_eq_false positive.le.not_gt]
    rfl
  · cases made

theorem unitsText_injective {first second : ℤ} {scale : ℕ} {text : String} (places : 0 < scale) (positive : 0 < first) (also : 0 < second)
    (written : unitsText first scale = .ok text) (same : unitsText second scale = .ok text) : first = second := by
  have texts := (unitsText_ok positive written).symm.trans (unitsText_ok also same)
  have equal := DigitTable.fixedText_injective places (String.ofList_injective texts)
  omega

theorem value_ofUnits {number : Decimal} {units : ℤ} {scale : ℕ} (positive : 0 < units) (counted : number.scaled scale = some units) :
    (Decimal.ofUnits units.natAbs scale).value = number.value := by
  refine (Decimal.value_eq_iff (Decimal.scaled_ofUnits _ _) counted).2 ?_
  omega

theorem parseDecimal_fixedText {units : ℕ} {scale : ℕ} (places : 0 < scale) (field : String) :
    parseDecimal digits (some (String.ofList (fixedText scale units))) field scale = .ok (.ofUnits units scale) := by
  unfold parseDecimal
  rw [Option.bind_some, String.toList_ofList, DigitTable.read_fixedText digits places]
  dsimp only
  exact if_neg (lt_irrefl (-(scale : ℤ)))

theorem ofUnits_value_pos {units scale : ℕ} (positive : 0 < units) : 0 < (Decimal.ofUnits units scale).value := by
  rw [value_of_scaled (Decimal.scaled_ofUnits units scale)]
  exact div_pos (by exact_mod_cast positive) (by positivity)

theorem parseLevel_evidence {level : Paper.PaperBookLevel} {evidence : Json} (price_positive : 0 < level.price)
    (price_below : level.price < priceUnits) (quantity_positive : 0 < level.quantity) (written : unitsEvidence level = .ok evidence) :
    parseLevel digits side evidence = .ok (spell level) := by
  obtain ⟨price, priced, written⟩ := bind_ok.1 written
  obtain ⟨quantity, sized, written⟩ := bind_ok.1 written
  cases written
  rw [unitsText_ok price_positive priced, unitsText_ok quantity_positive sized]
  have low : 0 < (Decimal.ofUnits level.price.natAbs priceScale).value := ofUnits_value_pos (by omega)
  have high : (Decimal.ofUnits level.price.natAbs priceScale).value < 1 := by
    rw [value_of_scaled (Decimal.scaled_ofUnits _ priceScale), div_lt_one (by positivity)]
    have below : ((level.price.natAbs : ℕ) : ℤ) < 10 ^ priceScale := by
      rw [Int.natAbs_of_nonneg price_positive.le]
      exact price_below
    exact_mod_cast below
  have some_ : 0 < (Decimal.ofUnits level.quantity.natAbs quantityScale).value := ofUnits_value_pos (by omega)
  have readPrice : parsePrice digits (some (String.ofList (fixedText priceScale level.price.natAbs))) "price" =
      .ok (.ofUnits level.price.natAbs priceScale) := by
    refine bind_ok.2 ⟨_, parseDecimal_fixedText (by decide) _, ?_⟩
    rw [if_neg (not_or.2 ⟨low.not_ge, high.not_ge⟩)]
  have readQuantity : parseQuantity digits (some (String.ofList (fixedText quantityScale level.quantity.natAbs))) "quantity" =
      .ok (.ofUnits level.quantity.natAbs quantityScale) := by
    refine bind_ok.2 ⟨_, parseDecimal_fixedText (by decide) _, ?_⟩
    rw [if_neg some_.not_ge]
  exact bind_ok.2 ⟨_, readPrice, bind_ok.2 ⟨_, readQuantity, rfl⟩⟩

theorem units_spell {level : Paper.PaperBookLevel} (price_positive : 0 < level.price) (quantity_positive : 0 < level.quantity) :
    (spell level).units = level := by
  unfold PaperBookLevel.units spell
  rw [Decimal.scaled_ofUnits, Decimal.scaled_ofUnits, Option.getD_some, Option.getD_some, Int.natAbs_of_nonneg price_positive.le,
    Int.natAbs_of_nonneg quantity_positive.le]

def PaperBookLevel.again (level : PaperBookLevel) : PaperBookLevel := spell level.units

theorem PaperBookLevel.Sound.units_again (sound : level.Sound) : level.again.units = level.units :=
  units_spell sound.price_positive sound.quantity_positive

theorem PaperBookLevel.Sound.price_again (sound : level.Sound) : level.again.price.value = level.price.value :=
  value_ofUnits sound.price_positive sound.price

theorem PaperBookLevel.Sound.quantity_again (sound : level.Sound) :
    level.again.quantity.value = level.quantity.value :=
  value_ofUnits sound.quantity_positive sound.quantity

theorem PaperBookLevel.Sound.again (sound : level.Sound) : level.again.Sound := by
  have units := sound.units_again
  have price : level.again.price.scaled priceScale = some level.units.price := by
    refine (Decimal.scaled_ofUnits _ _).trans (congrArg some ?_)
    exact Int.natAbs_of_nonneg sound.price_positive.le
  have quantity : level.again.quantity.scaled quantityScale = some level.units.quantity := by
    refine (Decimal.scaled_ofUnits _ _).trans (congrArg some ?_)
    exact Int.natAbs_of_nonneg sound.quantity_positive.le
  exact ⟨units ▸ price, units ▸ quantity, units ▸ sound.price_positive, units ▸ sound.price_below, units ▸ sound.quantity_positive⟩

/-- Levels as `_parse_levels` returns them. -/
structure Displayed (levels : List PaperBookLevel) : Prop where
  sound : ∀ level ∈ levels, level.Sound
  distinct : levels.Pairwise fun first second => first.price.value ≠ second.price.value

theorem readLevels_ok {items : List Json} {seen : List Decimal}
    (found : readLevels digits side items seen = .ok levels) :
    Displayed levels ∧ ∀ level ∈ levels, ∀ other ∈ seen, other.value ≠ level.price.value := by
  induction items generalizing seen levels with
  | nil =>
    cases found
    exact ⟨⟨fun _ member => absurd member List.not_mem_nil, .nil⟩, fun _ member => absurd member List.not_mem_nil⟩
  | cons raw rest ih =>
    obtain ⟨level, parsed, found⟩ := bind_ok.1 found
    split at found
    · cases found
    · rename_i fresh
      obtain ⟨later, read, found⟩ := bind_ok.1 found
      cases found
      obtain ⟨displayed, apart⟩ := ih read
      refine ⟨⟨List.forall_mem_cons.2 ⟨parseLevel_sound parsed, displayed.sound⟩, List.pairwise_cons.2 ⟨?_, displayed.distinct⟩⟩,
        List.forall_mem_cons.2 ⟨?_, ?_⟩⟩
      · exact fun other member => apart other member level.price List.mem_cons_self
      · exact fun other member same => fresh ⟨other, member, same⟩
      · exact fun other member price held => apart other member price (List.mem_cons_of_mem _ held)

theorem parseLevels_ok {value : Option Json} (found : parseLevels digits side value = .ok levels) :
    Displayed levels := by
  unfold parseLevels at found
  split at found
  · exact (readLevels_ok found).1
  · cases found

theorem readLevels_evidence (displayed : Displayed levels) {items : List Json}
    (written : levels.mapM levelEvidence = .ok items) {seen : List Decimal}
    (apart : ∀ level ∈ levels, ∀ other ∈ seen, other.value ≠ level.price.value) :
    readLevels digits side items seen = .ok (levels.map PaperBookLevel.again) := by
  induction levels generalizing items seen with
  | nil =>
    cases written
    rfl
  | cons level rest ih =>
    obtain ⟨sound, distinct⟩ := displayed
    obtain ⟨mine, theirs⟩ := List.forall_mem_cons.1 sound
    obtain ⟨before, after⟩ := List.pairwise_cons.1 distinct
    obtain ⟨item, others, head, tail, rfl⟩ := mapM_cons_ok.1 written
    rw [levelEvidence_sound mine] at head
    have read : parseLevel digits side item = .ok level.again :=
      parseLevel_evidence mine.price_positive mine.price_below mine.quantity_positive head
    have fresh : ¬∃ other ∈ seen, other.value = level.again.price.value := by
      intro found
      obtain ⟨other, member, same⟩ := found
      exact apart level List.mem_cons_self other member (same.trans mine.price_again)
    have later : ∀ held ∈ rest, ∀ other ∈ level.again.price :: seen, other.value ≠ held.price.value := by
      intro held member other known
      cases List.mem_cons.1 known with
      | inl same =>
        rw [same, mine.price_again]
        exact before held member
      | inr known => exact apart held (List.mem_cons_of_mem _ member) other known
    unfold readLevels
    refine bind_ok.2 ⟨_, read, ?_⟩
    rw [if_neg fresh]
    exact bind_ok.2 ⟨_, ih ⟨theirs, after⟩ tail later, rfl⟩

theorem parseBook_ok {platform : Platform} {origin ticker : String} {payload : List (String × Json)} {observedAt fetchedAt : Instant}
    {book : PaperBook} (found : parseBook platform origin ticker payload ranges observedAt fetchedAt = .ok book) :
    ∃ yesBids noBids yesDollars noDollars, Displayed yesBids ∧ Displayed noBids ∧ (yesBids.isEmpty && noBids.isEmpty) = false ∧
      checkTicks ranges (yesBids ++ noBids) = .ok () ∧ yesBids.mapM levelEvidence = .ok yesDollars ∧
        noBids.mapM levelEvidence = .ok noDollars ∧
          book = ⟨ticker, yesBids, noBids, origin, observedAt, fetchedAt,
            platform.sha256 (JsonText.dumps (.object (evidencePayload ticker origin (platform.isoformat observedAt) yesDollars noDollars))),
            JsonText.dumps (.object (evidencePayload ticker origin (platform.isoformat observedAt) yesDollars noDollars))⟩ := by
  obtain ⟨yesBids, yes, found⟩ := bind_ok.1 found
  obtain ⟨noBids, no, found⟩ := bind_ok.1 found
  split at found
  · cases found
  · rename_i some_
    obtain ⟨⟨⟩, ticks, found⟩ := bind_ok.1 found
    obtain ⟨yesDollars, yesWritten, found⟩ := bind_ok.1 found
    obtain ⟨noDollars, noWritten, found⟩ := bind_ok.1 found
    cases found
    exact ⟨yesBids, noBids, yesDollars, noDollars, parseLevels_ok yes, parseLevels_ok no, Bool.eq_false_iff.2 some_, ticks, yesWritten,
      noWritten, rfl⟩

theorem get_yes (ticker origin observedAt : String) (yesDollars noDollars : List Json) :
    get (evidencePayload ticker origin observedAt yesDollars noDollars) "yes_dollars" = some (.array yesDollars) := by
  simp [get, evidencePayload]

theorem get_no (ticker origin observedAt : String) (yesDollars noDollars : List Json) :
    get (evidencePayload ticker origin observedAt yesDollars noDollars) "no_dollars" = some (.array noDollars) := by
  simp [get, evidencePayload, List.lookup_cons]

theorem units_map_again (sound : ∀ level ∈ levels, level.Sound) :
    (levels.map PaperBookLevel.again).map PaperBookLevel.units = levels.map PaperBookLevel.units := by
  rw [List.map_map]
  exact List.map_congr_left fun level member => (sound level member).units_again

theorem sound_map_again (sound : ∀ level ∈ levels, level.Sound) :
    ∀ level ∈ levels.map PaperBookLevel.again, level.Sound := by
  intro level member
  obtain ⟨before, held, rfl⟩ := List.mem_map.1 member
  exact (sound before held).again

def PaperBook.again (book : PaperBook) : PaperBook :=
  { book with yesBids := book.yesBids.map PaperBookLevel.again, noBids := book.noBids.map PaperBookLevel.again }

theorem parseBook_evidence {platform : Platform} {origin ticker : String} {payload : List (String × Json)} {observedAt fetchedAt : Instant}
    {book : PaperBook} (found : parseBook platform origin ticker payload ranges observedAt fetchedAt = .ok book) :
    ∃ decoded, JsonText.loads book.evidenceJson = some (.object decoded) ∧
      parseBook platform origin ticker decoded ranges observedAt fetchedAt = .ok book.again := by
  obtain ⟨yesBids, noBids, yesDollars, noDollars, yes, no, some_, ticks, yesWritten, noWritten, rfl⟩ := parseBook_ok found
  refine ⟨_, JsonText.loads_dumps _, ?_⟩
  have readYes : parseLevels platform.digits .yes (some (.array yesDollars)) = .ok (yesBids.map PaperBookLevel.again) :=
    readLevels_evidence yes yesWritten fun _ _ _ member => absurd member List.not_mem_nil
  have readNo : parseLevels platform.digits .no (some (.array noDollars)) = .ok (noBids.map PaperBookLevel.again) :=
    readLevels_evidence no noWritten fun _ _ _ member => absurd member List.not_mem_nil
  have bothSound : ∀ level ∈ yesBids ++ noBids, level.Sound := fun level member =>
    (List.mem_append.1 member).elim (yes.sound level) (no.sound level)
  have onTick : checkTicks ranges (yesBids.map PaperBookLevel.again ++ noBids.map PaperBookLevel.again) = .ok () := by
    rw [← List.map_append, checkTicks_sound (sound_map_again bothSound), units_map_again bothSound]
    exact (checkTicks_sound bothSound).1 ticks
  have writeYes : (yesBids.map PaperBookLevel.again).mapM levelEvidence = .ok yesDollars := by
    rw [evidence_sound (sound_map_again yes.sound), units_map_again yes.sound, ← evidence_sound yes.sound, yesWritten]
  have writeNo : (noBids.map PaperBookLevel.again).mapM levelEvidence = .ok noDollars := by
    rw [evidence_sound (sound_map_again no.sound), units_map_again no.sound, ← evidence_sound no.sound, noWritten]
  unfold parseBook
  rw [get_yes, get_no, readYes, readNo]
  refine bind_ok.2 ⟨_, rfl, bind_ok.2 ⟨_, rfl, ?_⟩⟩
  rw [List.isEmpty_map, List.isEmpty_map, some_]
  exact bind_ok.2 ⟨(), onTick, bind_ok.2 ⟨_, writeYes, bind_ok.2 ⟨_, writeNo, rfl⟩⟩⟩

/-- The evidence of one bid, whose price is spelled with two places. -/
example : (parseBook ⟨asciiDigits, fun _ => "hash", fun _ => "now"⟩ "origin" "TICKER"
    [("yes_dollars", .array [.array [.string "0.10", .string "5"]]), ("no_dollars", .array [])] [⟨0, 1000000, 10000, by decide⟩] 0 0).toOption.map
      (fun book => String.ofList book.evidenceJson) =
    some "\x7b\"no_dollars\":[],\"observed_at\":\"now\",\"source_origin\":\"origin\",\"ticker\":\"TICKER\",\"yes_dollars\":[[\"0.100000\",\"5.00\"]]\x7d" := by
  decide +kernel

end Callisto.Paper.Spelled

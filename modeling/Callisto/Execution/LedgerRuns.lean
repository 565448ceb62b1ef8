import Callisto.Execution.LedgerCalls

/-! Every run of concurrent ledger calls. -/

namespace Callisto.Execution

open Callisto.Library
open Callisto.Ws (strip)

/-- The committed rows of the ledger are what an audit of it expects. -/
structure LedgerSound (rows : List Row) : Prop where
  sequences : ∀ intent ∈ intentsOf rows, ∃ count, 0 < count ∧
    (eventsOf (intentGroup intent.id rows)).map VenueExecutionEvent.sequence = List.range' 1 count ∧
      ∀ event ∈ eventsOf (intentGroup intent.id rows), event.sequence = 1 ↔ event.facts.eventType = "intent_recorded"
  owned : ∀ event ∈ eventsOf rows, ∃ intent ∈ intentsOf rows, intent.id = event.intentId
  dedupes : ∀ intentId, ((eventsOf (intentGroup intentId rows)).map fun event => event.facts.dedupeKey).Nodup
  acknowledged : ∀ intent ∈ intentsOf rows, (acknowledgementsOf (intentGroup intent.id rows)).length ≤ 1 ∧
    ∀ record ∈ acknowledgementsOf (intentGroup intent.id rows),
      record.facts.filledQuantity.1 + record.facts.remainingQuantity.1 = intent.facts.quantity.1
  orders : ∀ first ∈ acknowledgementsOf rows, ∀ second ∈ acknowledgementsOf rows, first.facts.venue = second.facts.venue →
    first.facts.providerOrderId = second.facts.providerOrderId → first.facts.intentId = second.facts.intentId
  named : ∀ event ∈ eventsOf rows, ∀ id ∈ event.facts.providerOrderId,
    ∃ record ∈ acknowledgementsOf rows, record.facts.intentId = event.intentId ∧ record.facts.providerOrderId = id

theorem ledgerSound {store : LedgerStore} (sound : Store.Sound ledgerTables fitsTogether store) : LedgerSound store.committed := by
  have unique : store.committed.Pairwise fun row other => ¬Store.Clash ledgerTables row other :=
    (List.pairwise_append.1 sound.formed.unique).1
  have grouped : ∀ {row : Row}, row ∈ store.committed → ∃ intent, Fits (intentGroup row.intentId store.committed) intent ∧
      Row.intent intent ∈ store.committed ∧ intent.id = row.intentId := by
    intro row member
    obtain ⟨intent, fits⟩ := sound.fits row.intentId (List.ne_nil_of_mem (Store.mem_group.2 ⟨member, rfl⟩))
    obtain ⟨seen, own⟩ := Store.mem_group.1 fits.mem_intent
    exact ⟨intent, fits, seen, own⟩
  have clashes : ∀ {row other : Row}, row ∈ store.committed → other ∈ store.committed → ∀ key ∈ row.keys, key ∈ other.keys → row = other := by
    intro row other one two key has hasToo
    have sees : row ∈ store.visible 0 := List.mem_append_left _ one
    exact sound.formed.eq_of_clash key sees (List.mem_append_left _ two) has hasToo
  have apart : ∀ intentId, (intentGroup intentId store.committed).Pairwise fun row other => ¬Store.Clash ledgerTables row other :=
    fun intentId => unique.sublist List.filter_sublist
  have fitting : ∀ intent ∈ intentsOf store.committed, Fits (intentGroup intent.id store.committed) intent := by
    intro intent member
    have sees := mem_intentsOf.1 member
    obtain ⟨other, fits, seen, own⟩ := grouped sees
    have one : Row.intent other = .intent intent :=
      clashes seen sees (.intentId intent.id) (by simp [Row.keys, show other.id = intent.id from own]) (by simp [Row.keys])
    cases one
    exact fits
  refine ⟨fun intent member => ?_, fun event member => ?_, fun intentId => ?_, fun intent member => ⟨?_, fun record has => ?_⟩,
    fun first one second two venue order => ?_, fun event member id named => ?_⟩
  · have fits := fitting intent member
    exact ⟨_, List.length_pos_iff.2 fits.recorded, fits.sequences, fits.types⟩
  · obtain ⟨intent, -, seen, own⟩ := grouped (mem_eventsOf.1 member)
    exact ⟨intent, mem_intentsOf.2 seen, own⟩
  · rw [List.Nodup, List.pairwise_map, eventsOf, List.pairwise_filterMap]
    refine (apart intentId).imp_of_mem fun {row other} one two free first found second foundToo same => free ?_
    cases row with
    | event record =>
      cases other with
      | event later =>
        cases found
        cases foundToo
        have mine : first.intentId = intentId := (Store.mem_group.1 one).2
        have mineToo : second.intentId = intentId := (Store.mem_group.1 two).2
        refine ⟨.dedupe intentId first.facts.dedupeKey, ?_, ?_⟩
        · simp [ledgerTables, Row.keys, mine]
        · simp [ledgerTables, Row.keys, mineToo, same]
      | intent later => cases foundToo
      | acknowledgement later => cases foundToo
    | intent record => cases found
    | acknowledgement record => cases found
  · have alone : (acknowledgementsOf (intentGroup intent.id store.committed)).Pairwise fun _ _ => False := by
      rw [acknowledgementsOf, List.pairwise_filterMap]
      refine (apart intent.id).imp_of_mem fun {row other} one two free first found second foundToo => free ?_
      cases row with
      | acknowledgement record =>
        cases other with
        | acknowledgement later =>
          have mine : record.facts.intentId = intent.id := (Store.mem_group.1 one).2
          have mineToo : later.facts.intentId = intent.id := (Store.mem_group.1 two).2
          refine ⟨.acknowledgement intent.id, ?_, ?_⟩
          · simp [ledgerTables, Row.keys, mine]
          · simp [ledgerTables, Row.keys, mineToo]
        | intent later => cases foundToo
        | event later => cases foundToo
      | intent record => cases found
      | event record => cases found
    cases listed : acknowledgementsOf (intentGroup intent.id store.committed) with
    | nil => exact Nat.zero_le 1
    | cons first rest =>
      cases rest with
      | nil => exact le_refl 1
      | cons second others =>
        rw [listed] at alone
        exact absurd (List.rel_of_pairwise_cons alone List.mem_cons_self) not_false
  · exact ((fitting intent member).acknowledged record has).2.2
  · have same : Row.acknowledgement first = .acknowledgement second := by
      apply clashes (mem_acknowledgementsOf.1 one) (mem_acknowledgementsOf.1 two)
        (.providerOrder first.facts.venue first.facts.providerOrderId)
      · simp [Row.keys]
      · simp [Row.keys, venue, order]
    cases same
    rfl
  · have sees := mem_eventsOf.1 member
    obtain ⟨intent, fits, -, -⟩ := grouped sees
    obtain ⟨record, has, same⟩ := fits.ordered event (mem_eventsOf.2 (Store.mem_group.2 ⟨sees, rfl⟩)) id named
    obtain ⟨seen, own⟩ := Store.mem_group.1 (mem_acknowledgementsOf.1 has)
    exact ⟨record, mem_acknowledgementsOf.2 seen, own, same⟩

def LedgerCall.SameFacts : LedgerCall → Row → Prop
  | .recordIntent intent provenance, .intent record => ∃ values ∈ (intentFacts intent provenance).toOption, record.facts = values
  | .recordEvent request, .event record =>
    record.intentId = request.intentId ∧ ∃ expected ∈ request.expected.toOption, record.facts = expected record.facts.venue
  | .recordInitialAcknowledgement intentId acknowledgement, .acknowledgement record => record.facts = acknowledgement.facts intentId
  | _, _ => False

/-- A call that has ended repeated what a row it saw says, and returned it, or contradicted a row of its key, and raised. In
both cases it wrote nothing. -/
def HonestAnswer (client : ℕ) (call : LedgerCall) (start : LedgerStore) (result : Except LedgerError Row) (ended : LedgerStore) : Prop :=
  ∀ row ∈ start.visible client,
    (call.SameFacts row → result.toOption = some row ∧ ended.own client = start.own client) ∧
      (call.SameKey client start row → ¬call.SameFacts row → result.toOption = none ∧ ended.own client = start.own client)

def LedgerCall.payload : LedgerCall → Option Evidence
  | .recordIntent _ _ => none
  | .recordEvent request => (jsonEvidence (.mapping request.payload)).toOption
  | .recordInitialAcknowledgement _ acknowledgement => some acknowledgement.payload

def Row.payload : Row → Option Evidence
  | .intent _ => none
  | .event record => some record.facts.payload
  | .acknowledgement record => some record.facts.payload

/-- The payload of the call differs from that of a row with its key by more than `true` for 1 and `false` for 0, or not at all. -/
def Distinguished (client : ℕ) (call : LedgerCall) (start : LedgerStore) : Prop :=
  ∀ row ∈ start.visible client, call.SameKey client start row →
    ∀ said ∈ call.payload, ∀ held ∈ row.payload, samePayload held said → held = said

def CallsCommitNothing (pool : LedgerPool) : PoolEvent Moment LedgerCall Store.Closing → Prop
  | .operate _ _ => True
  | event => (pool.step ledgerClients event).state.committed = pool.state.committed

theorem toOption_eq_some {ε α : Type} {result : Except ε α} {value : α} : result.toOption = some value ↔ result = .ok value := by
  cases result with
  | error error => simp [Except.toOption]
  | ok found => simp [Except.toOption]

theorem expected_payload {request : EventRequest} {expected : VenueName → EventFacts} (normal : request.expected = .ok expected)
    (venue : VenueName) : (LedgerCall.recordEvent request).payload = some (expected venue).payload :=
  congrArg Except.toOption (expected_spec normal venue).2.2.2.2

theorem sameFacts_matches {call : LedgerCall} {row : Row} (same : call.SameFacts row) : call.Matches row := by
  cases call with
  | recordIntent intent provenance =>
    cases row with
    | intent record =>
      obtain ⟨values, normal, equal⟩ := same
      exact ⟨values, toOption_eq_some.1 normal, equal⟩
    | event record => cases same
    | acknowledgement record => cases same
  | recordEvent request =>
    cases row with
    | intent record => cases same
    | event record =>
      obtain ⟨mine, expected, normal, equal⟩ := same
      exact ⟨mine, expected, toOption_eq_some.1 normal, by rw [eventMatches, ← equal]; exact ⟨rfl, rfl⟩⟩
    | acknowledgement record => cases same
  | recordInitialAcknowledgement intentId acknowledgement =>
    cases row with
    | intent record => cases same
    | event record => cases same
    | acknowledgement record =>
      have equal : record.facts = acknowledgement.facts intentId := same
      exact ⟨by rw [equal], by rw [equal]; exact samePayload_refl _⟩

theorem matches_sameKey {client : ℕ} {start : LedgerStore} {call : LedgerCall} {row : Row} (same : call.Matches row) :
    call.SameKey client start row := by
  cases call with
  | recordIntent intent provenance =>
    cases row with
    | intent record =>
      obtain ⟨values, normal, equal⟩ := same
      have facts : record.facts = values := equal
      rw [LedgerCall.SameKey, facts]
      exact intentFacts_key normal
    | event record => cases same
    | acknowledgement record => cases same
  | recordEvent request =>
    cases row with
    | intent record => cases same
    | event record =>
      obtain ⟨mine, expected, normal, equal⟩ := same
      exact Or.inl ⟨mine, (eventMatches_fields equal).2.1.trans (expected_spec normal _).2.2.1⟩
    | acknowledgement record => cases same
  | recordInitialAcknowledgement intentId acknowledgement =>
    obtain ⟨record, rfl, mine, -⟩ := matches_acknowledgement same
    exact Or.inl mine

theorem matches_sameFacts {call : LedgerCall} {row : Row} (same : call.Matches row)
    (distinguished : ∀ said ∈ call.payload, ∀ held ∈ row.payload, samePayload held said → held = said) : call.SameFacts row := by
  cases call with
  | recordIntent intent provenance =>
    cases row with
    | intent record =>
      obtain ⟨values, normal, equal⟩ := same
      exact ⟨values, toOption_eq_some.2 normal, equal⟩
    | event record => cases same
    | acknowledgement record => cases same
  | recordEvent request =>
    cases row with
    | intent record => cases same
    | event record =>
      obtain ⟨mine, expected, normal, rest, payload⟩ := same
      have equal := distinguished _ (expected_payload normal record.facts.venue) _ rfl payload
      refine ⟨mine, expected, toOption_eq_some.2 normal, ?_⟩
      generalize expected record.facts.venue = values at rest equal
      cases values
      cases facts : record.facts
      rw [facts] at rest equal
      simp_all
    | acknowledgement record => cases same
  | recordInitialAcknowledgement intentId acknowledgement =>
    cases row with
    | intent record => cases same
    | event record => cases same
    | acknowledgement record =>
      obtain ⟨rest, payload⟩ := same
      have equal := distinguished _ rfl _ rfl payload
      show record.facts = _
      cases facts : record.facts
      rw [facts] at rest equal
      simp_all [VenueInitialAcknowledgement.facts]

theorem Answered.honest {client : ℕ} {call : LedgerCall} {start ended : LedgerStore} {result : Except LedgerError Row}
    (answered : Answered client call start result ended) (distinguished : Distinguished client call start) :
    HonestAnswer client call start result ended := by
  refine fun row sees => ⟨fun same => ?_, fun keyed differs => ?_⟩
  · have matched := sameFacts_matches same
    obtain ⟨own, returns, -⟩ := answered.repeated row sees (matches_sameKey matched)
    exact ⟨by rw [returns matched]; rfl, own⟩
  · obtain ⟨own, -, only⟩ := answered.repeated row sees keyed
    refine ⟨?_, own⟩
    cases result with
    | error error => rfl
    | ok other =>
      have same := (answered.returned other rfl).2
      rw [only other rfl] at same
      exact absurd (matches_sameFacts same (distinguished row sees keyed)) differs

def ledgerContract : Contract ledgerClients :=
  Store.contract ledgerTables fitsTogether VenueExecutionLedger Answered (fun _ _ _ _ _ answered => answered.settled)
    fun _ call _ ready => ledger_keeps ready call

section Examples

def bidIntent : VenueOrderIntent where
  venue := .kalshi
  instrumentId := "KXTEST"
  clientOrderId := "order-1"
  bookSide := .bid
  quantity := ⟨10, 0⟩
  limitPrice := ⟨5, -1⟩
  identified := by decide
  sized := by decide
  priced := by decide

def botProvenance : VenueIntentProvenance where
  source := "bot"
  sourced := by decide
  fingerprinted := by simp

def submissionStarted (postOnly : PayloadValue) : EventRequest where
  intentId := "intent-1"
  eventType := "submission_started"
  source := "bot"
  dedupeKey := "submission_started:attempt-1"
  occurredAt := .aware 0
  payload := [("post_only", postOnly)]

def goOn (uuids : List String) : List (PoolEvent Moment LedgerCall Store.Closing) := uuids.map fun uuid => .advance 0 ⟨uuid, 0⟩

/-- An intent and an event are committed, and the event is recorded again with another value in its payload. -/
def recordedAgain (first second : PayloadValue) : List (PoolEvent Moment LedgerCall Store.Closing) :=
  .call 0 (.recordIntent bidIntent botProvenance) :: goOn ["intent-1", "event-1", ""] ++
    .call 0 (.recordEvent (submissionStarted first)) :: goOn ["", "", "", "event-2"] ++
      .operate 0 .commit :: .call 0 (.recordEvent (submissionStarted second)) :: goOn ["", ""]

instance (client : ℕ) (start : LedgerStore) : ∀ (call : LedgerCall) (row : Row), Decidable (call.SameKey client start row)
  | .recordIntent _ _, .intent _ => inferInstanceAs (Decidable (_ ∧ _))
  | .recordIntent _ _, .event _ => isFalse id
  | .recordIntent _ _, .acknowledgement _ => isFalse id
  | .recordEvent _, .intent _ => isFalse id
  | .recordEvent _, .event _ => inferInstanceAs (Decidable ((_ ∧ _) ∨ ∃ intent ∈ intentsOf (start.visible client), _))
  | .recordEvent _, .acknowledgement _ => isFalse id
  | .recordInitialAcknowledgement _ _, .intent _ => isFalse id
  | .recordInitialAcknowledgement _ _, .event _ => isFalse id
  | .recordInitialAcknowledgement _ _, .acknowledgement _ => inferInstanceAs (Decidable (_ ∨ _ ∧ _))

instance : ∀ (call : LedgerCall) (row : Row), Decidable (call.SameFacts row)
  | .recordIntent intent provenance, .intent _ =>
    inferInstanceAs (Decidable (∃ values ∈ (intentFacts intent provenance).toOption, _))
  | .recordIntent _ _, .event _ => isFalse id
  | .recordIntent _ _, .acknowledgement _ => isFalse id
  | .recordEvent _, .intent _ => isFalse id
  | .recordEvent request, .event _ => inferInstanceAs (Decidable (_ ∧ ∃ expected ∈ request.expected.toOption, _))
  | .recordEvent _, .acknowledgement _ => isFalse id
  | .recordInitialAcknowledgement _ _, .intent _ => isFalse id
  | .recordInitialAcknowledgement _ _, .event _ => isFalse id
  | .recordInitialAcknowledgement _ _, .acknowledgement _ => inferInstanceAs (Decidable (_ = _))

instance (client : ℕ) (call : LedgerCall) (start : LedgerStore) (result : Except LedgerError Row) (ended : LedgerStore) :
    Decidable (HonestAnswer client call start result ended) :=
  inferInstanceAs (Decidable (∀ row ∈ start.visible client, _ ∧ (_ → ¬_ → _)))

instance (client : ℕ) (call : LedgerCall) (start : LedgerStore) : Decidable (Distinguished client call start) :=
  inferInstanceAs (Decidable (∀ row ∈ start.visible client, _ → ∀ said ∈ call.payload, ∀ held ∈ row.payload, _))

instance (pool : LedgerPool) (event : PoolEvent Moment LedgerCall Store.Closing) : Decidable (pool.GoodCall Distinguished event) :=
  match event with
  | .call client call => inferInstanceAs (Decidable (Distinguished client call pool.state))
  | .advance _ _ => isTrue trivial
  | .operate _ _ => isTrue trivial
  | .breakOff _ => isTrue trivial

end Examples

end Callisto.Execution

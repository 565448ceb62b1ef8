import Callisto.Execution.Ledger

/-! The rows of one intent: the intent, its events in their order and its acknowledgement. -/

namespace Callisto.Execution

open Callisto.Library

def intentsOf (rows : List Row) : List VenueOrderIntentRecord :=
  rows.filterMap fun
    | .intent record => some record
    | _ => none

def eventsOf (rows : List Row) : List VenueExecutionEvent :=
  rows.filterMap fun
    | .event record => some record
    | _ => none

def acknowledgementsOf (rows : List Row) : List VenueProviderAcknowledgementRecord :=
  rows.filterMap fun
    | .acknowledgement record => some record
    | _ => none

theorem mem_intentsOf {rows : List Row} {record : VenueOrderIntentRecord} : record ∈ intentsOf rows ↔ Row.intent record ∈ rows := by
  unfold intentsOf
  rw [List.mem_filterMap]
  constructor
  · rintro ⟨row, member, found⟩
    cases row with
    | intent other =>
      cases found
      exact member
    | event other => cases found
    | acknowledgement other => cases found
  · exact fun member => ⟨_, member, rfl⟩

theorem mem_eventsOf {rows : List Row} {record : VenueExecutionEvent} : record ∈ eventsOf rows ↔ Row.event record ∈ rows := by
  unfold eventsOf
  rw [List.mem_filterMap]
  constructor
  · rintro ⟨row, member, found⟩
    cases row with
    | intent other => cases found
    | event other =>
      cases found
      exact member
    | acknowledgement other => cases found
  · exact fun member => ⟨_, member, rfl⟩

theorem mem_acknowledgementsOf {rows : List Row} {record : VenueProviderAcknowledgementRecord} :
    record ∈ acknowledgementsOf rows ↔ Row.acknowledgement record ∈ rows := by
  unfold acknowledgementsOf
  rw [List.mem_filterMap]
  constructor
  · rintro ⟨row, member, found⟩
    cases row with
    | intent other => cases found
    | event other => cases found
    | acknowledgement other =>
      cases found
      exact member
  · exact fun member => ⟨_, member, rfl⟩

theorem eventsOf_append (first second : List Row) : eventsOf (first ++ second) = eventsOf first ++ eventsOf second :=
  List.filterMap_append ..

/-- The rows of an intent belong together: its events are numbered from the recording of the intent on, its acknowledgements
cover its quantity, and its events name the order that was acknowledged. -/
structure Fits (rows : List Row) (intent : VenueOrderIntentRecord) : Prop where
  intents : intentsOf rows = [intent]
  sequences : (eventsOf rows).map VenueExecutionEvent.sequence = List.range' 1 (eventsOf rows).length
  recorded : eventsOf rows ≠ []
  types : ∀ event ∈ eventsOf rows, event.sequence = 1 ↔ event.facts.eventType = "intent_recorded"
  venues : ∀ event ∈ eventsOf rows, event.facts.venue = intent.facts.venue
  acknowledged : ∀ record ∈ acknowledgementsOf rows, record.facts.venue = intent.facts.venue ∧
    record.facts.clientOrderId = intent.facts.clientOrderId ∧
      record.facts.filledQuantity.1 + record.facts.remainingQuantity.1 = intent.facts.quantity.1
  ordered : ∀ event ∈ eventsOf rows, ∀ id ∈ event.facts.providerOrderId,
    ∃ record ∈ acknowledgementsOf rows, record.facts.providerOrderId = id
  provided : ∀ event ∈ eventsOf rows, event.facts.providerEventId ≠ none → event.facts.providerOrderId ≠ none

/-- The rows under the lock of an intent: none, or rows that belong together. -/
def fitsTogether (_ : String) (rows : List Row) : Prop := rows ≠ [] → ∃ intent, Fits rows intent

abbrev LedgerRely := Store.Rely ledgerTables fitsTogether

abbrev LedgerGuar := Store.Guar ledgerTables fitsTogether

abbrev LedgerReady := Store.Ready ledgerTables fitsTogether

abbrev intentGroup (intentId : String) (rows : List Row) : List Row := Store.group ledgerTables intentId rows

variable {rows : List Row} {intent : VenueOrderIntentRecord}

theorem Fits.mem_intent (fits : Fits rows intent) : Row.intent intent ∈ rows :=
  mem_intentsOf.1 (by rw [fits.intents]; exact List.mem_singleton.2 rfl)

theorem fits_recorded (record : VenueOrderIntentRecord) (id : String) : Fits [.intent record, .event (initialEvent record id)] record := by
  refine ⟨rfl, rfl, by simp [eventsOf], fun event member => ?_, fun event member => ?_, fun ack member => ?_,
    fun event member => ?_, fun event member => ?_⟩
  · have same : event = initialEvent record id := by simpa [eventsOf] using member
    subst same
    simp [initialEvent]
  · have same : event = initialEvent record id := by simpa [eventsOf] using member
    subst same
    rfl
  · simp [acknowledgementsOf] at member
  · have same : event = initialEvent record id := by simpa [eventsOf] using member
    subst same
    simp [initialEvent]
  · have same : event = initialEvent record id := by simpa [eventsOf] using member
    subst same
    simp [initialEvent]

theorem Fits.append_event (fits : Fits rows intent) {event : VenueExecutionEvent}
    (next : event.sequence = (eventsOf rows).length + 1) (type : event.facts.eventType ≠ "intent_recorded")
    (venue : event.facts.venue = intent.facts.venue)
    (order : ∀ id ∈ event.facts.providerOrderId, ∃ record ∈ acknowledgementsOf rows, record.facts.providerOrderId = id)
    (provided : event.facts.providerEventId ≠ none → event.facts.providerOrderId ≠ none) :
    Fits (rows ++ [.event event]) intent := by
  have events : eventsOf (rows ++ [.event event]) = eventsOf rows ++ [event] := eventsOf_append ..
  have acks : acknowledgementsOf (rows ++ [.event event]) = acknowledgementsOf rows := by simp [acknowledgementsOf]
  have some_ : 0 < (eventsOf rows).length := List.length_pos_iff.2 fits.recorded
  have either : ∀ other ∈ eventsOf (rows ++ [.event event]), other ∈ eventsOf rows ∨ other = event := by
    intro other member
    rw [events] at member
    simpa using member
  refine ⟨?_, ?_, by simp [events], fun other member => ?_, fun other member => ?_, ?_, fun other member => ?_, fun other member => ?_⟩
  · have none_ : intentsOf [Row.event event] = [] := rfl
    rw [intentsOf, List.filterMap_append, ← intentsOf, ← intentsOf, none_, List.append_nil, fits.intents]
  · rw [events, List.map_append, fits.sequences, List.length_append, List.length_singleton, List.range'_concat]
    simp [next, Nat.add_comm]
  · rcases either other member with old | rfl
    · exact fits.types other old
    · exact ⟨fun one => by omega, fun recorded => absurd recorded type⟩
  · rcases either other member with old | rfl
    · exact fits.venues other old
    · exact venue
  · rw [acks]
    exact fits.acknowledged
  · rw [acks]
    rcases either other member with old | rfl
    · exact fits.ordered other old
    · exact order
  · rcases either other member with old | rfl
    · exact fits.provided other old
    · exact provided

theorem Fits.append_acknowledgement (fits : Fits rows intent) {record : VenueProviderAcknowledgementRecord}
    (venue : record.facts.venue = intent.facts.venue) (order : record.facts.clientOrderId = intent.facts.clientOrderId)
    (covers : record.facts.filledQuantity.1 + record.facts.remainingQuantity.1 = intent.facts.quantity.1) :
    Fits (rows ++ [.acknowledgement record]) intent := by
  have events : eventsOf (rows ++ [.acknowledgement record]) = eventsOf rows := by simp [eventsOf]
  have acks : acknowledgementsOf (rows ++ [.acknowledgement record]) = acknowledgementsOf rows ++ [record] := by
    simp [acknowledgementsOf]
  refine ⟨?_, ?_, ?_, ?_, ?_, fun other member => ?_, fun event member id named => ?_, ?_⟩
  · have none_ : intentsOf [Row.acknowledgement record] = [] := rfl
    rw [intentsOf, List.filterMap_append, ← intentsOf, ← intentsOf, none_, List.append_nil, fits.intents]
  · rw [events]
    exact fits.sequences
  · rw [events]
    exact fits.recorded
  · rw [events]
    exact fits.types
  · rw [events]
    exact fits.venues
  · rw [acks] at member
    rcases List.mem_append.1 member with old | new
    · exact fits.acknowledged other old
    · rw [List.mem_singleton.1 new]
      exact ⟨venue, order, covers⟩
  · rw [events] at member
    obtain ⟨found, old, same⟩ := fits.ordered event member id named
    exact ⟨found, by rw [acks]; exact List.mem_append_left _ old, same⟩
  · rw [events]
    exact fits.provided

theorem foldl_max_range' (count : ℕ) : (List.range' 1 count).foldl max 0 = count := by
  induction count with
  | zero => rfl
  | succ count ih =>
    rw [List.range'_concat, List.foldl_append, ih]
    simp only [List.foldl_cons, List.foldl_nil]
    omega

theorem maxSequence_eq {store : LedgerStore} {client : ℕ} {intentId : String}
    (fits : Fits (intentGroup intentId (store.visible client)) intent) :
    maxSequence client intentId store = (eventsOf (intentGroup intentId (store.visible client))).length := by
  have picks : ∀ rows : List Row, (rows.filterMap fun
      | .event record => if record.intentId = intentId then some record.sequence else none
      | _ => none) = (eventsOf (intentGroup intentId rows)).map VenueExecutionEvent.sequence := by
    intro rows
    induction rows with
    | nil => rfl
    | cons row rest ih =>
      cases row with
      | intent record =>
        by_cases mine : record.id = intentId
        · simpa [intentGroup, Store.group, ledgerTables, Row.intentId, eventsOf, mine] using ih
        · simpa [intentGroup, Store.group, ledgerTables, Row.intentId, eventsOf, mine] using ih
      | event record =>
        by_cases mine : record.intentId = intentId
        · simpa [intentGroup, Store.group, ledgerTables, Row.intentId, eventsOf, mine] using ih
        · simpa [intentGroup, Store.group, ledgerTables, Row.intentId, eventsOf, mine] using ih
      | acknowledgement record =>
        by_cases mine : record.facts.intentId = intentId
        · simpa [intentGroup, Store.group, ledgerTables, Row.intentId, eventsOf, mine] using ih
        · simpa [intentGroup, Store.group, ledgerTables, Row.intentId, eventsOf, mine] using ih
  calc maxSequence client intentId store
      = ((eventsOf (intentGroup intentId (store.visible client))).map VenueExecutionEvent.sequence).foldl max 0 :=
        congrArg (List.foldl max 0) (picks (store.visible client))
    _ = (eventsOf (intentGroup intentId (store.visible client))).length := by rw [fits.sequences, foldl_max_range']

section Lookups

variable {client : ℕ} {store : LedgerStore} {record : VenueOrderIntentRecord}

theorem findIntent_some {id : String} (found : findIntent client id store = some record) :
    Row.intent record ∈ store.visible client ∧ record.id = id := by
  obtain ⟨row, member, picked⟩ := List.exists_of_findSome?_eq_some found
  cases row with
  | intent other =>
    obtain ⟨mine, same⟩ := Option.ite_none_right_eq_some.1 picked
    cases same
    exact ⟨member, mine⟩
  | event other => cases picked
  | acknowledgement other => cases picked

theorem findIntent_none {id : String} (missing : findIntent client id store = none)
    (member : Row.intent record ∈ store.visible client) : record.id ≠ id := by
  intro mine
  have picked := List.findSome?_eq_none_iff.1 missing _ member
  simp [mine] at picked

theorem findClientOrder_some {venue : VenueName} {clientOrderId : String}
    (found : findClientOrder client venue clientOrderId store = some record) :
    Row.intent record ∈ store.visible client ∧ record.facts.venue = venue ∧ record.facts.clientOrderId = clientOrderId := by
  obtain ⟨row, member, picked⟩ := List.exists_of_findSome?_eq_some found
  cases row with
  | intent other =>
    obtain ⟨mine, same⟩ := Option.ite_none_right_eq_some.1 picked
    cases same
    exact ⟨member, mine⟩
  | event other => cases picked
  | acknowledgement other => cases picked

theorem findClientOrder_none {venue : VenueName} {clientOrderId : String}
    (missing : findClientOrder client venue clientOrderId store = none)
    (member : Row.intent record ∈ store.visible client) : ¬(record.facts.venue = venue ∧ record.facts.clientOrderId = clientOrderId) := by
  intro mine
  have picked := List.findSome?_eq_none_iff.1 missing _ member
  simp [mine] at picked

theorem findAcknowledgement_some {intentId : String} {record : VenueProviderAcknowledgementRecord}
    (found : findAcknowledgement client intentId store = some record) :
    Row.acknowledgement record ∈ store.visible client ∧ record.facts.intentId = intentId := by
  obtain ⟨row, member, picked⟩ := List.exists_of_findSome?_eq_some found
  cases row with
  | intent other => cases picked
  | event other => cases picked
  | acknowledgement other =>
    obtain ⟨mine, same⟩ := Option.ite_none_right_eq_some.1 picked
    cases same
    exact ⟨member, mine⟩

theorem findAcknowledgement_none {intentId : String} (missing : findAcknowledgement client intentId store = none)
    {record : VenueProviderAcknowledgementRecord} (member : Row.acknowledgement record ∈ store.visible client) :
    record.facts.intentId ≠ intentId := by
  intro mine
  have picked := List.findSome?_eq_none_iff.1 missing _ member
  simp [mine] at picked

theorem findEvent_some {intentId dedupeKey : String} {record : VenueExecutionEvent}
    (found : findEvent client intentId dedupeKey store = some record) :
    Row.event record ∈ store.visible client ∧ record.intentId = intentId ∧ record.facts.dedupeKey = dedupeKey := by
  obtain ⟨row, member, picked⟩ := List.exists_of_findSome?_eq_some found
  cases row with
  | intent other => cases picked
  | event other =>
    obtain ⟨mine, same⟩ := Option.ite_none_right_eq_some.1 picked
    cases same
    exact ⟨member, mine⟩
  | acknowledgement other => cases picked

theorem findEvent_none {intentId dedupeKey : String} (missing : findEvent client intentId dedupeKey store = none)
    {record : VenueExecutionEvent} (member : Row.event record ∈ store.visible client) :
    ¬(record.intentId = intentId ∧ record.facts.dedupeKey = dedupeKey) := by
  intro mine
  have picked := List.findSome?_eq_none_iff.1 missing _ member
  simp [mine] at picked

end Lookups

end Callisto.Execution

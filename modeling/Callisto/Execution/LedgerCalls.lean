import Callisto.Execution.LedgerGroups

/-! What a ledger call promises, whatever other transactions do between its statements. -/

namespace Callisto.Execution

open Callisto.Library
open Callisto.Ws (strip)

/-- The facts of an acknowledgement for an intent that has its venue and its client order id. -/
def VenueInitialAcknowledgement.facts (acknowledgement : VenueInitialAcknowledgement) (intentId : String) : AcknowledgementFacts where
  intentId := intentId
  venue := acknowledgement.venue
  clientOrderId := acknowledgement.clientOrderId
  providerOrderId := acknowledgement.providerOrderId
  providerStatus := acknowledgement.providerStatus
  filledQuantity := acknowledgement.filledQuantity
  remainingQuantity := acknowledgement.remainingQuantity
  providerTimestamp := acknowledgement.providerTimestamp
  payload := acknowledgement.payload

/-- The row holds what the call says, as far as the ledger compares it. -/
def LedgerCall.Matches : LedgerCall → Row → Prop
  | .recordIntent intent provenance, .intent record => ∃ values, intentFacts intent provenance = .ok values ∧ intentMatches record values
  | .recordEvent request, .event record =>
    record.intentId = request.intentId ∧
      ∃ expected, request.expected = .ok expected ∧ eventMatches record (expected record.facts.venue)
  | .recordInitialAcknowledgement intentId acknowledgement, .acknowledgement record =>
    acknowledgementMatches record (acknowledgement.facts intentId)
  | _, _ => False

/-- The row has the key of the call: the client order id; the dedupe key or the provider's event id; the intent or the
provider's order id. -/
def LedgerCall.SameKey (client : ℕ) (store : LedgerStore) : LedgerCall → Row → Prop
  | .recordIntent intent _, .intent record =>
    record.facts.venue = intent.venue ∧ record.facts.clientOrderId = intent.clientOrderId
  | .recordEvent request, .event record =>
    (record.intentId = request.intentId ∧ record.facts.dedupeKey = strip request.dedupeKey) ∨
      ∃ intent ∈ intentsOf (store.visible client), intent.id = request.intentId ∧
        record.facts.venue = intent.facts.venue ∧ record.facts.providerEventId ≠ none ∧
          record.facts.providerEventId = optionalText request.providerEventId
  | .recordInitialAcknowledgement intentId acknowledgement, .acknowledgement record =>
    record.facts.intentId = intentId ∨
      (record.facts.venue = acknowledgement.venue ∧ record.facts.providerOrderId = acknowledgement.providerOrderId)
  | _, _ => False

structure Answered (client : ℕ) (call : LedgerCall) (start : LedgerStore) (result : Except LedgerError Row) (store : LedgerStore) :
    Prop where
  settled : Store.Settled ledgerTables fitsTogether client store
  returned : ∀ row, result = .ok row → row ∈ store.visible client ∧ call.Matches row
  repeated : ∀ row ∈ start.visible client, call.SameKey client start row →
    store.own client = start.own client ∧ (call.Matches row → result = .ok row) ∧ ∀ other, result = .ok other → other = row
  raised : ∀ error, result = .error error → store.own client = start.own client ∨ client ∈ store.broken

variable {client : ℕ} {call : LedgerCall} {start store : LedgerStore} {result : Except LedgerError Row}

theorem expected_spec {request : EventRequest} {expected : VenueName → EventFacts} (normal : request.expected = .ok expected)
    (venue : VenueName) : (expected venue).venue = venue ∧ (expected venue).eventType ≠ "intent_recorded" ∧
      (expected venue).dedupeKey = strip request.dedupeKey ∧ (expected venue).providerEventId = optionalText request.providerEventId ∧
        jsonEvidence (.mapping request.payload) = .ok (expected venue).payload := by
  unfold EventRequest.expected at normal
  by_cases untyped : strip request.eventType = "" ∨ strip request.eventType = "intent_recorded"
  · rw [if_pos untyped] at normal
    cases normal
  · rw [if_neg untyped] at normal
    by_cases unsourced : strip request.source = "" ∨ strip request.dedupeKey = ""
    · rw [if_pos unsourced] at normal
      cases normal
    · rw [if_neg unsourced] at normal
      cases occurs : request.occurredAt with
      | naive =>
        rw [occurs] at normal
        cases normal
      | aware instant =>
        rw [occurs] at normal
        cases evidence : jsonEvidence (.mapping request.payload) with
        | error error =>
          rw [evidence] at normal
          cases normal
        | ok payload =>
          rw [evidence] at normal
          cases normal
          exact ⟨rfl, fun recorded => untyped (Or.inr recorded), rfl, rfl, rfl⟩

theorem intentFacts_key {intent : VenueOrderIntent} {provenance : VenueIntentProvenance} {values : IntentFacts}
    (normal : intentFacts intent provenance = .ok values) :
    values.venue = intent.venue ∧ values.clientOrderId = intent.clientOrderId := by
  unfold intentFacts at normal
  cases sized : exactNumeric intent.quantity "quantity" with
  | error error =>
    rw [sized] at normal
    cases normal
  | ok quantity =>
    rw [sized] at normal
    cases priced : exactNumeric intent.limitPrice "limit_price" with
    | error error =>
      rw [priced] at normal
      cases normal
    | ok limitPrice =>
      rw [priced] at normal
      cases normal
      exact ⟨rfl, rfl⟩

theorem eventMatches_fields {record : VenueExecutionEvent} {values : EventFacts} (same : eventMatches record values) :
    record.facts.venue = values.venue ∧ record.facts.dedupeKey = values.dedupeKey ∧
      record.facts.providerOrderId = values.providerOrderId ∧ record.facts.providerEventId = values.providerEventId := by
  have equal := same.1
  simp only [EventFacts.mk.injEq] at equal
  exact ⟨equal.1, equal.2.2.2.1, equal.2.2.2.2.1, equal.2.2.2.2.2.1⟩

variable {row : Row}

theorem matches_keys (same : call.Matches row) :
    ∃ key ∈ row.keys, ∀ other, call.Matches other → key ∈ other.keys := by
  cases call with
  | recordIntent intent provenance =>
    cases row with
    | intent record =>
      obtain ⟨values, normal, one⟩ := same
      refine ⟨.clientOrder values.venue values.clientOrderId, by simp [Row.keys, show record.facts = values from one], ?_⟩
      intro other two
      cases other with
      | intent second =>
        obtain ⟨_, normalToo, two⟩ := two
        rw [normal] at normalToo
        cases normalToo
        simp [Row.keys, show second.facts = values from two]
      | event second => cases two
      | acknowledgement second => cases two
    | event record => cases same
    | acknowledgement record => cases same
  | recordEvent request =>
    have dedupes : ∀ record, (LedgerCall.recordEvent request).Matches (.event record) →
        RowKey.dedupe request.intentId (strip request.dedupeKey) ∈ (Row.event record).keys := by
      rintro record ⟨mine, expected, normal, equal, -⟩
      have dedupe : record.facts.dedupeKey = strip request.dedupeKey := by
        have field := congrArg EventFacts.dedupeKey equal
        simpa [(expected_spec normal record.facts.venue).2.2.1] using field
      simp [Row.keys, mine, dedupe]
    cases row with
    | intent record => cases same
    | event record =>
      refine ⟨_, dedupes record same, fun other two => ?_⟩
      cases other with
      | intent second => cases two
      | event second => exact dedupes second two
      | acknowledgement second => cases two
    | acknowledgement record => cases same
  | recordInitialAcknowledgement intentId acknowledgement =>
    have keyed : ∀ record, (LedgerCall.recordInitialAcknowledgement intentId acknowledgement).Matches (.acknowledgement record) →
        RowKey.acknowledgement intentId ∈ (Row.acknowledgement record).keys := by
      rintro record ⟨equal, -⟩
      have mine : record.facts.intentId = intentId := congrArg AcknowledgementFacts.intentId equal
      simp [Row.keys, mine]
    cases row with
    | intent record => cases same
    | event record => cases same
    | acknowledgement record =>
      refine ⟨_, keyed record same, fun other two => ?_⟩
      cases other with
      | intent second => cases two
      | event second => cases two
      | acknowledgement second => exact keyed second two

theorem matches_unique (sound : Store.Sound ledgerTables fitsTogether store) {row other : Row} (sees : row ∈ store.visible client)
    (seesToo : other ∈ store.visible client) (one : call.Matches row) (two : call.Matches other) : row = other := by
  obtain ⟨key, has, hasToo⟩ := matches_keys one
  exact sound.formed.eq_of_clash key sees seesToo has (hasToo other two)

theorem intent_visible {id : String} (sound : fitsTogether id (intentGroup id (store.visible client)))
    (sees : row ∈ store.visible client) (mine : row.intentId = id) : ∃ intent, Fits (intentGroup id (store.visible client)) intent ∧
      Row.intent intent ∈ store.visible client ∧ intent.id = id := by
  have member : row ∈ intentGroup id (store.visible client) := Store.mem_group.2 ⟨sees, mine⟩
  obtain ⟨intent, fits⟩ := sound (List.ne_nil_of_mem member)
  obtain ⟨seen, own⟩ := Store.mem_group.1 fits.mem_intent
  exact ⟨intent, fits, seen, own⟩

theorem sameKey_matches (ready : LedgerReady client start store) {row other : Row} (before : row ∈ start.visible client)
    (sees : other ∈ store.visible client) (keyed : call.SameKey client start row) (matched : call.Matches other) : other = row := by
  have still := ready.mem_visible before
  cases call with
  | recordIntent intent provenance =>
    cases row with
    | intent first =>
      cases other with
      | intent second =>
        obtain ⟨values, normal, same⟩ := matched
        obtain ⟨venue, order⟩ := intentFacts_key normal
        have facts : second.facts = values := same
        apply ready.sound.formed.eq_of_clash (.clientOrder intent.venue intent.clientOrderId) sees still
        · simp [ledgerTables, Row.keys, facts, venue, order]
        · simp [ledgerTables, Row.keys, keyed.1, keyed.2]
      | event second => cases matched
      | acknowledgement second => cases matched
    | event first => cases keyed
    | acknowledgement first => cases keyed
  | recordEvent request =>
    cases row with
    | intent first => cases keyed
    | event first =>
      cases other with
      | intent second => cases matched
      | event second =>
        obtain ⟨own, expected, normal, equal⟩ := matched
        obtain ⟨-, -, dedupe, provider, -⟩ := expected_spec normal second.facts.venue
        obtain ⟨-, sameDedupe, -, sameProvider⟩ := eventMatches_fields equal
        rcases keyed with ⟨mine, firstDedupe⟩ | ⟨intent, seesIntent, named, venue, some_, firstProvider⟩
        · apply ready.sound.formed.eq_of_clash (.dedupe request.intentId (strip request.dedupeKey)) sees still
          · simp [ledgerTables, Row.keys, own, sameDedupe, dedupe]
          · simp [ledgerTables, Row.keys, mine, firstDedupe]
        · obtain ⟨holder, fits, seesHolder, holds⟩ := intent_visible (ready.fits request.intentId) sees own
          have one : Row.intent holder = .intent intent := by
            apply ready.sound.formed.eq_of_clash (.intentId request.intentId) seesHolder (ready.mem_visible (mem_intentsOf.1 seesIntent))
            · simp [ledgerTables, Row.keys, holds]
            · simp [ledgerTables, Row.keys, named]
          cases one
          have secondVenue := fits.venues second (mem_eventsOf.2 (Store.mem_group.2 ⟨sees, own⟩))
          obtain ⟨id, present⟩ := Option.ne_none_iff_exists'.1 some_
          apply ready.sound.formed.eq_of_clash (.providerEvent intent.facts.venue id) sees still
          · have provided : second.facts.providerEventId = some id := by rw [sameProvider, provider, ← firstProvider, present]
            simp [ledgerTables, Row.keys, provided, secondVenue]
          · simp [ledgerTables, Row.keys, present, venue]
      | acknowledgement second => cases matched
    | acknowledgement first => cases keyed
  | recordInitialAcknowledgement intentId acknowledgement =>
    cases row with
    | intent first => cases keyed
    | event first => cases keyed
    | acknowledgement first =>
      cases other with
      | intent second => cases matched
      | event second => cases matched
      | acknowledgement second =>
        have fields := matched.1
        simp only [VenueInitialAcknowledgement.facts, AcknowledgementFacts.mk.injEq] at fields
        obtain ⟨own, venue, -, order, -⟩ := fields
        rcases keyed with mine | ⟨firstVenue, firstOrder⟩
        · apply ready.sound.formed.eq_of_clash (.acknowledgement intentId) sees still
          · simp [ledgerTables, Row.keys, own]
          · simp [ledgerTables, Row.keys, mine]
        · apply ready.sound.formed.eq_of_clash (.providerOrder acknowledgement.venue acknowledgement.providerOrderId) sees still
          · simp [ledgerTables, Row.keys, venue, order]
          · simp [ledgerTables, Row.keys, firstVenue, firstOrder]

theorem Answered.raise (ready : LedgerReady client start store) (error : LedgerError)
    (new : ∀ row ∈ start.visible client, ¬call.Matches row) : Answered client call start (.error error) store := by
  refine ⟨ready.settled, fun row returned => ?_, fun row sees _ => ⟨ready.own, fun same => ?_, fun other returned => ?_⟩,
    fun _ _ => Or.inl ready.own⟩
  · cases returned
  · exact absurd same (new row sees)
  · cases returned

theorem Answered.found (ready : LedgerReady client start store) (sees : row ∈ store.visible client)
    (same : call.Matches row) : Answered client call start (.ok row) store := by
  refine ⟨ready.settled, fun other returned => ?_, fun other before keyed => ⟨ready.own, fun sameToo => ?_, fun third returned => ?_⟩,
    fun error raised => ?_⟩
  · cases returned
    exact ⟨sees, same⟩
  · rw [matches_unique ready.sound sees (ready.mem_visible before) same sameToo]
  · cases returned
    exact sameKey_matches ready before sees keyed same
  · cases raised

theorem Answered.failed {rows : List Row} (failed : Store.Failed ledgerTables fitsTogether client start rows store) (error : LedgerError)
    (new : ∀ row ∈ start.visible client, ¬call.Matches row)
    (kept : rows = [] ∨ ∀ row ∈ start.visible client, ¬call.SameKey client start row) :
    Answered client call start (.error error) store := by
  refine ⟨failed.settled, fun row returned => ?_, fun row sees keyed => ⟨?_, fun same => ?_, fun other returned => ?_⟩,
    fun _ _ => Or.inr failed.broken⟩
  · cases returned
  · rcases kept with rfl | fresh
    · simpa using failed.own
    · exact absurd keyed (fresh row sees)
  · exact absurd same (new row sees)
  · cases returned

theorem Answered.written {name : String} {rows seen : List Row}
    (writing : Store.Writing ledgerTables fitsTogether client name start rows seen store) (fits : fitsTogether name seen)
    (member : row ∈ seen) (same : call.Matches row) (fresh : ∀ row ∈ start.visible client, ¬call.SameKey client start row) :
    Answered client call start (.ok row) store := by
  refine ⟨writing.settle fits, fun other returned => ?_, fun other sees keyed => absurd keyed (fresh other sees), fun _ raised => ?_⟩
  · cases returned
    exact ⟨writing.mem_visible member, same⟩
  · cases raised

theorem clientOrder_mem_keys {venue : VenueName} {clientOrderId : String}
    (has : RowKey.clientOrder venue clientOrderId ∈ row.keys) :
    ∃ record, row = .intent record ∧ record.facts.venue = venue ∧ record.facts.clientOrderId = clientOrderId := by
  cases row with
  | intent record => exact ⟨record, rfl, by simpa [Row.keys, eq_comm] using has⟩
  | event record => simp [Row.keys] at has
  | acknowledgement record => simp [Row.keys] at has

section RecordIntent

variable {intent : VenueOrderIntent} {provenance : VenueIntentProvenance} {values : IntentFacts}

theorem canonicalIntent_keeps (ready : LedgerReady client start store) (normal : intentFacts intent provenance = .ok values)
    {named : VenueOrderIntentRecord} (sees : Row.intent named ∈ store.visible client) (venue : named.facts.venue = values.venue)
    (order : named.facts.clientOrderId = values.clientOrderId) :
    (canonicalIntent client values).Keeps (LedgerRely client) (LedgerGuar client)
      (Answered client (.recordIntent intent provenance) start) store := by
  apply ready.read
  intro later rely kept
  have still := rely.mem_visible sees
  cases found : findClientOrder client values.venue values.clientOrderId later with
  | none => exact absurd ⟨venue, order⟩ (findClientOrder_none found still)
  | some existing =>
    obtain ⟨seen, sameVenue, sameOrder⟩ := findClientOrder_some found
    by_cases same : intentMatches existing values
    · simp only [if_pos same]
      exact fun last further => Answered.found (kept.later further) (further.mem_visible seen) ⟨values, normal, same⟩
    · simp only [if_neg same]
      refine fun last further => Answered.raise (kept.later further) _ fun row before matched => same ?_
      cases row with
      | intent record =>
        obtain ⟨_, normalToo, equal⟩ := matched
        rw [normal] at normalToo
        cases normalToo
        have facts : record.facts = values := equal
        have one : Row.intent record = .intent existing := by
          apply kept.sound.formed.eq_of_clash (.clientOrder values.venue values.clientOrderId) (kept.mem_visible before) seen
          · simp [ledgerTables, Row.keys, facts]
          · simp [ledgerTables, Row.keys, sameVenue, sameOrder]
        cases one
        exact facts
      | event record => cases matched
      | acknowledgement record => cases matched

theorem recordIntent_keeps (ready : LedgerReady client start start) (intent : VenueOrderIntent) (provenance : VenueIntentProvenance) :
    (recordIntent client intent provenance).Keeps (LedgerRely client) (LedgerGuar client)
      (Answered client (.recordIntent intent provenance) start) start := by
  unfold recordIntent
  cases normal : intentFacts intent provenance with
  | error error =>
    refine fun later rely => Answered.raise (ready.later rely) error fun row sees matched => ?_
    cases row with
    | intent record =>
      obtain ⟨values, normalToo, -⟩ := matched
      rw [normal] at normalToo
      cases normalToo
    | event record => cases matched
    | acknowledgement record => cases matched
  | ok values =>
    obtain ⟨sameVenue, sameOrder⟩ := intentFacts_key normal
    have hasOrder : ∀ row, (LedgerCall.recordIntent intent provenance).Matches row →
        RowKey.clientOrder values.venue values.clientOrderId ∈ row.keys := by
      intro row matched
      cases row with
      | intent record =>
        obtain ⟨_, normalToo, equal⟩ := matched
        rw [normal] at normalToo
        cases normalToo
        simp [Row.keys, show record.facts = values from equal]
      | event record => cases matched
      | acknowledgement record => cases matched
    apply ready.insert
    · exact fun later moment rely => Or.inr (by simp [ledgerTables, Row.keys, Row.intentId])
    · rintro later moment rely kept ⟨other, sees, key, has, arbiter, hasToo⟩
      cases key with
      | clientOrder venue clientOrderId =>
        obtain ⟨named, rfl, venueToo, orderToo⟩ := clientOrder_mem_keys hasToo
        have key : venue = values.venue ∧ clientOrderId = values.clientOrderId := by simpa [ledgerTables, Row.keys] using has
        exact canonicalIntent_keeps kept normal sees (venueToo.trans key.1) (orderToo.trans key.2)
      | _ => cases arbiter
    · intro later moment after kept free failed last further
      refine Answered.failed (failed.later further) _ (fun row sees matched => ?_) (Or.inl rfl)
      exact free row (kept.mem_visible sees) _ (by simp [ledgerTables, Row.keys]) rfl (hasOrder row matched)
    · intro later moment after rely kept apart writing
      have fresh : ∀ row ∈ start.visible client, ¬(LedgerCall.recordIntent intent provenance).SameKey client start row := by
        intro row sees keyed
        cases row with
        | intent record =>
          refine apart _ (kept.mem_visible sees) ⟨.clientOrder values.venue values.clientOrderId, ?_, ?_⟩
          · simp [ledgerTables, Row.keys]
          · simp [ledgerTables, Row.keys, keyed.1, keyed.2, sameVenue, sameOrder]
        | event record => cases keyed
        | acknowledgement record => cases keyed
      have new : ∀ row ∈ start.visible client, ¬(LedgerCall.recordIntent intent provenance).Matches row := by
        intro row sees matched
        exact apart row (kept.mem_visible sees) ⟨_, by simp [ledgerTables, Row.keys], hasOrder row matched⟩
      have first : Store.group ledgerTables moment.uuid (later.visible client) = [] := by
        by_contra rows
        obtain ⟨other, fits⟩ := kept.fits moment.uuid rows
        obtain ⟨seen, mine⟩ := Store.mem_group.1 fits.mem_intent
        exact apart _ seen ⟨.intentId moment.uuid, by simp [ledgerTables, Row.keys], by
          simp [ledgerTables, Row.keys, show other.id = moment.uuid from mine]⟩
      rw [show ledgerTables.guard (.intent ⟨moment.uuid, values, moment.now⟩) = moment.uuid from rfl, first, List.nil_append] at writing
      apply writing.insert
      · exact fun input => rfl
      · intro last input failed final further
        exact Answered.failed (failed.later further) _ new (Or.inr fresh)
      · intro last input written
        apply written.read
        intro final still
        have own : Row.intent ⟨moment.uuid, values, moment.now⟩ ∈ final.visible client :=
          still.mem_visible (by simp)
        cases found : findIntent client moment.uuid final with
        | none => exact absurd rfl (findIntent_none found own)
        | some record =>
          obtain ⟨seen, mine⟩ := findIntent_some found
          have one : Row.intent record = .intent ⟨moment.uuid, values, moment.now⟩ := by
            apply still.sound.formed.eq_of_clash (.intentId moment.uuid) seen own
            · simp [ledgerTables, Row.keys, mine]
            · simp [ledgerTables, Row.keys]
          cases one
          intro end_ further
          exact Answered.written (still.later further) (fun _ => ⟨_, fits_recorded _ input.uuid⟩) List.mem_cons_self
            ⟨values, normal, rfl⟩ fresh

end RecordIntent

section RecordEvent

variable {request : EventRequest} {expected : VenueName → EventFacts} {intent : VenueOrderIntentRecord}

theorem matches_event (normal : request.expected = .ok expected) (matched : (LedgerCall.recordEvent request).Matches row) :
    ∃ record, row = .event record ∧ record.intentId = request.intentId ∧ eventMatches record (expected record.facts.venue) := by
  cases row with
  | intent record => cases matched
  | event record =>
    obtain ⟨mine, _, normalToo, same⟩ := matched
    rw [normal] at normalToo
    cases normalToo
    exact ⟨record, rfl, mine, same⟩
  | acknowledgement record => cases matched

/-- What is known of the intent of an event call once its row is locked. -/
structure Locked (client : ℕ) (intent : VenueOrderIntentRecord) (store : LedgerStore) : Prop where
  held : (client, intent.id) ∈ store.locks
  sees : Row.intent intent ∈ store.visible client

theorem Locked.later {after : LedgerStore} (locked : Locked client intent store) (rely : LedgerRely client store after) :
    Locked client intent after :=
  ⟨(rely.same.locks _).2 locked.held, rely.mem_visible locked.sees⟩

theorem fits_intent (ready : LedgerReady client start store) (sees : Row.intent intent ∈ store.visible client) :
    Fits (intentGroup intent.id (store.visible client)) intent := by
  obtain ⟨other, fits, seen, mine⟩ := intent_visible (ready.fits intent.id) sees rfl
  have one : Row.intent other = .intent intent := by
    apply ready.sound.formed.eq_of_clash (.intentId intent.id) seen sees
    · simp [ledgerTables, Row.keys, mine]
    · simp [ledgerTables, Row.keys]
  cases one
  exact fits

theorem appendEvent_keeps (ready : LedgerReady client start store) (locked : Locked client intent store)
    (named : intent.id = request.intentId) (normal : request.expected = .ok expected)
    (order : ∀ id ∈ (expected intent.facts.venue).providerOrderId,
      ∃ record, Row.acknowledgement record ∈ store.visible client ∧ record.facts.intentId = intent.id ∧ record.facts.providerOrderId = id)
    (provided : (expected intent.facts.venue).providerEventId ≠ none → (expected intent.facts.venue).providerOrderId ≠ none)
    (new : ∀ row ∈ start.visible client, ¬(LedgerCall.recordEvent request).Matches row) :
    (appendEvent client request.intentId (expected intent.facts.venue)).Keeps (LedgerRely client) (LedgerGuar client)
      (Answered client (.recordEvent request) start) store := by
  obtain ⟨sameVenue, type, dedupe, provider, -⟩ := expected_spec normal intent.facts.venue
  apply ready.read
  intro read rely kept
  have lockedRead := locked.later rely
  apply kept.insert
  · intro later moment relyLater
    left
    rw [show ledgerTables.guard _ = request.intentId from rfl, ← named]
    exact (lockedRead.later relyLater).held
  · rintro later moment relyLater keptLater ⟨other, -, key, -, arbiter, -⟩
    cases arbiter
  · intro later moment after keptLater free failed last further
    exact Answered.failed (failed.later further) _ new (Or.inl rfl)
  · intro later moment after relyLater keptLater apart writing last further
    have fits := fits_intent keptLater (lockedRead.later relyLater).sees
    have group : intentGroup intent.id (later.visible client) = intentGroup intent.id (read.visible client) :=
      relyLater.group_visible lockedRead.held
    have next : maxSequence client request.intentId read = (eventsOf (intentGroup intent.id (later.visible client))).length := by
      rw [group, ← named]
      exact maxSequence_eq (fits_intent kept lockedRead.sees)
    have orders : ∀ id ∈ (expected intent.facts.venue).providerOrderId,
        ∃ record ∈ acknowledgementsOf (intentGroup intent.id (later.visible client)), record.facts.providerOrderId = id := by
      intro id member
      obtain ⟨record, sees, mine, same⟩ := order id member
      refine ⟨record, mem_acknowledgementsOf.2 (Store.mem_group.2 ⟨?_, mine⟩), same⟩
      exact relyLater.mem_visible (rely.mem_visible sees)
    have extended : Fits (intentGroup intent.id (later.visible client) ++ [.event ⟨moment.uuid, request.intentId,
        maxSequence client request.intentId read + 1, expected intent.facts.venue, moment.now⟩]) intent :=
      fits.append_event (by rw [next]) type sameVenue orders provided
    rw [named] at extended
    refine Answered.written (writing.later further) (fun _ => ⟨intent, extended⟩)
      (List.mem_append_right _ (List.mem_singleton.2 rfl)) ⟨rfl, expected, normal, ?_⟩ fun row sees keyed => ?_
    · rw [show (expected intent.facts.venue).venue = intent.facts.venue from sameVenue]
      exact ⟨rfl, rfl⟩
    · cases row with
      | intent record => cases keyed
      | acknowledgement record => cases keyed
      | event record =>
        rcases keyed with ⟨mine, sameDedupe⟩ | ⟨other, seesOther, mine, venue, some_, sameProvider⟩
        · refine apart _ (keptLater.mem_visible sees) ⟨.dedupe request.intentId (strip request.dedupeKey), ?_, ?_⟩
          · simp [ledgerTables, Row.keys, dedupe]
          · simp [ledgerTables, Row.keys, mine, sameDedupe]
        · have one : Row.intent other = .intent intent := by
            apply keptLater.sound.formed.eq_of_clash (.intentId intent.id) (keptLater.mem_visible (mem_intentsOf.1 seesOther))
              (lockedRead.later relyLater).sees
            · simp [ledgerTables, Row.keys, mine, named]
            · simp [ledgerTables, Row.keys]
          cases one
          obtain ⟨id, present⟩ := Option.ne_none_iff_exists'.1 some_
          refine apart _ (keptLater.mem_visible sees) ⟨.providerEvent intent.facts.venue id, ?_, ?_⟩
          · simp [ledgerTables, Row.keys, provider, ← sameProvider, present, sameVenue]
          · simp [ledgerTables, Row.keys, present, venue]

theorem recordFacts_keeps (ready : LedgerReady client start store) (locked : Locked client intent store)
    (named : intent.id = request.intentId) (normal : request.expected = .ok expected)
    (order : ∀ id ∈ (expected intent.facts.venue).providerOrderId,
      ∃ record, Row.acknowledgement record ∈ store.visible client ∧ record.facts.intentId = intent.id ∧ record.facts.providerOrderId = id)
    (provided : (expected intent.facts.venue).providerEventId ≠ none → (expected intent.facts.venue).providerOrderId ≠ none) :
    (recordFacts client request.intentId (expected intent.facts.venue)).Keeps (LedgerRely client) (LedgerGuar client)
      (Answered client (.recordEvent request) start) store := by
  obtain ⟨sameVenue, -, dedupe, -⟩ := expected_spec normal intent.facts.venue
  apply ready.read
  intro read rely kept
  have lockedRead := locked.later rely
  cases found : findEvent client request.intentId (expected intent.facts.venue).dedupeKey read with
  | some existing =>
    obtain ⟨seen, mine, sameDedupe⟩ := findEvent_some found
    by_cases same : eventMatches existing (expected intent.facts.venue)
    · simp only [if_pos same]
      refine fun last further => Answered.found (kept.later further) (further.mem_visible seen) ⟨mine, expected, normal, ?_⟩
      rw [(eventMatches_fields same).1, sameVenue]
      exact same
    · simp only [if_neg same]
      refine fun last further => Answered.raise (kept.later further) _ fun row before matched => same ?_
      obtain ⟨record, rfl, own, equal⟩ := matches_event normal matched
      have one : Row.event record = .event existing := by
        apply kept.sound.formed.eq_of_clash (.dedupe request.intentId (strip request.dedupeKey)) (kept.mem_visible before) seen
        · simp [ledgerTables, Row.keys, own, (eventMatches_fields equal).2.1, (expected_spec normal record.facts.venue).2.2.1]
        · simp [ledgerTables, Row.keys, mine, sameDedupe, dedupe]
      cases one
      have venue : existing.facts.venue = intent.facts.venue := by
        apply (fits_intent kept lockedRead.sees).venues
        exact mem_eventsOf.2 (Store.mem_group.2 ⟨seen, mine.trans named.symm⟩)
      rw [← venue]
      exact equal
  | none =>
    have new : ∀ row ∈ start.visible client, ¬(LedgerCall.recordEvent request).Matches row := by
      intro row before matched
      obtain ⟨record, rfl, own, equal⟩ := matches_event normal matched
      refine findEvent_none found (kept.mem_visible before) ⟨own, ?_⟩
      rw [(eventMatches_fields equal).2.1, (expected_spec normal record.facts.venue).2.2.1, dedupe]
    have orderRead : ∀ id ∈ (expected intent.facts.venue).providerOrderId, ∃ record,
        Row.acknowledgement record ∈ read.visible client ∧ record.facts.intentId = intent.id ∧ record.facts.providerOrderId = id := by
      intro id member
      obtain ⟨record, sees, mine, same⟩ := order id member
      exact ⟨record, rely.mem_visible sees, mine, same⟩
    cases provider : (expected intent.facts.venue).providerEventId with
    | none => exact appendEvent_keeps kept lockedRead named normal orderRead provided new
    | some providerEventId =>
      apply kept.read
      intro later relyLater keptLater
      cases owner : findProviderEvent client (expected intent.facts.venue).venue providerEventId later with
      | some other => exact fun last further => Answered.raise (keptLater.later further) _ new
      | none =>
        refine appendEvent_keeps keptLater (lockedRead.later relyLater) named normal (fun id member => ?_) provided new
        obtain ⟨record, sees, mine, same⟩ := orderRead id member
        exact ⟨record, relyLater.mem_visible sees, mine, same⟩

theorem recordEvent_keeps (ready : LedgerReady client start start) (request : EventRequest) :
    (recordEvent client request).Keeps (LedgerRely client) (LedgerGuar client) (Answered client (.recordEvent request) start) start := by
  unfold recordEvent
  cases normal : request.expected with
  | error error =>
    refine fun later rely => Answered.raise (ready.later rely) error fun row sees matched => ?_
    cases row with
    | intent record => cases matched
    | event record =>
      obtain ⟨-, _, normalToo, -⟩ := matched
      rw [normal] at normalToo
      cases normalToo
    | acknowledgement record => cases matched
  | ok expected =>
    apply ready.selectForUpdate
    · intro later intent found
      obtain ⟨sees, named⟩ := findIntent_some found
      exact ⟨_, sees, by simp [ledgerTables, Row.keys, named]⟩
    · intro later kept missing last further
      refine Answered.raise (kept.later further) _ fun row before matched => ?_
      obtain ⟨record, rfl, own, -⟩ := matches_event normal matched
      obtain ⟨intent, -, sees, named⟩ := intent_visible (kept.fits request.intentId) (kept.mem_visible before) own
      exact findIntent_none missing sees named
    · intro later intent locked found held same kept
      obtain ⟨sees, named⟩ := findIntent_some found
      rw [← same] at sees
      have lockedNow : Locked client intent locked := ⟨by rw [named]; exact held, sees⟩
      have fits := fits_intent kept sees
      cases order : (expected intent.facts.venue).providerOrderId with
      | none =>
        by_cases provider : (expected intent.facts.venue).providerEventId.isSome
        · simp only [order, if_pos provider]
          refine fun last further => Answered.raise (kept.later further) _ fun row before matched => ?_
          obtain ⟨record, rfl, own, equal⟩ := matches_event normal matched
          have member : record ∈ eventsOf (intentGroup intent.id (locked.visible client)) :=
            mem_eventsOf.2 (Store.mem_group.2 ⟨kept.mem_visible before, own.trans named.symm⟩)
          rw [fits.venues record member] at equal
          obtain ⟨-, -, sameOrder, sameProvider⟩ := eventMatches_fields equal
          refine fits.provided record member ?_ (by rw [sameOrder, order])
          rw [sameProvider]
          exact Option.isSome_iff_ne_none.1 provider
        · simp only [order, if_neg provider]
          refine recordFacts_keeps kept lockedNow named normal (fun id member => ?_) (fun some_ => ?_)
          · rw [order] at member
            cases member
          · exact absurd (Option.isSome_iff_ne_none.2 some_) provider
      | some providerOrderId =>
        simp only [order]
        apply kept.read
        intro read rely keptRead
        have lockedRead := lockedNow.later rely
        have fitsRead := fits_intent keptRead lockedRead.sees
        by_cases agrees : (findAcknowledgement client request.intentId read).map (fun record => record.facts.providerOrderId) =
            some providerOrderId
        · simp only [if_pos agrees]
          refine recordFacts_keeps keptRead lockedRead named normal (fun id member => ?_) (fun _ => by rw [order]; simp)
          obtain ⟨record, looked, same⟩ := Option.map_eq_some_iff.1 agrees
          obtain ⟨seen, mine⟩ := findAcknowledgement_some looked
          rw [order] at member
          cases member
          exact ⟨record, seen, mine.trans named.symm, same⟩
        · simp only [if_neg agrees]
          refine fun last further => Answered.raise (keptRead.later further) _ fun row before matched => agrees ?_
          obtain ⟨record, rfl, own, equal⟩ := matches_event normal matched
          have member : record ∈ eventsOf (intentGroup intent.id (read.visible client)) :=
            mem_eventsOf.2 (Store.mem_group.2 ⟨keptRead.mem_visible before, own.trans named.symm⟩)
          rw [fitsRead.venues record member] at equal
          obtain ⟨acknowledgement, has, sameId⟩ := fitsRead.ordered record member providerOrderId
            ((eventMatches_fields equal).2.2.1.trans order)
          obtain ⟨seen, mine⟩ := Store.mem_group.1 (mem_acknowledgementsOf.1 has)
          cases looked : findAcknowledgement client request.intentId read with
          | none => exact absurd (Eq.trans mine named) (findAcknowledgement_none looked seen)
          | some other =>
            obtain ⟨seenOther, mineOther⟩ := findAcknowledgement_some looked
            have one : Row.acknowledgement other = .acknowledgement acknowledgement := by
              apply keptRead.sound.formed.eq_of_clash (.acknowledgement intent.id) seenOther seen
              · simp [ledgerTables, Row.keys, mineOther, named]
              · simp [ledgerTables, Row.keys, show acknowledgement.facts.intentId = intent.id from mine]
            cases one
            rw [Option.map_some, sameId]

end RecordEvent

section RecordInitialAcknowledgement

variable {acknowledgement : VenueInitialAcknowledgement} {intent : VenueOrderIntentRecord} {intentId : String}

theorem acknowledgedQuantity_eq (acknowledgement : VenueInitialAcknowledgement) :
    acknowledgedQuantity acknowledgement = acknowledgement.filledQuantity.1 + acknowledgement.remainingQuantity.1 := by
  apply (Rounding.roundSig_eq_self_iff 39 _).2
  apply Rounding.representable_of_small
  have filled := abs_lt.1 acknowledgement.filledQuantity.2
  have remaining := abs_lt.1 acknowledgement.remainingQuantity.2
  omega

theorem matches_acknowledgement (matched : (LedgerCall.recordInitialAcknowledgement intentId acknowledgement).Matches row) :
    ∃ record, row = .acknowledgement record ∧ record.facts.intentId = intentId ∧
      acknowledgementMatches record (acknowledgement.facts intentId) := by
  cases row with
  | intent record => cases matched
  | event record => cases matched
  | acknowledgement record =>
    have mine : record.facts.intentId = intentId := congrArg AcknowledgementFacts.intentId matched.1
    exact ⟨record, rfl, mine, matched⟩

theorem canonicalAcknowledgement_keeps (ready : LedgerReady client start store) :
    (canonicalAcknowledgement client (acknowledgement.facts intentId)).Keeps (LedgerRely client) (LedgerGuar client)
      (Answered client (.recordInitialAcknowledgement intentId acknowledgement) start) store := by
  apply ready.read
  intro later rely kept
  cases found : findAcknowledgement client (acknowledgement.facts intentId).intentId later with
  | some existing =>
    obtain ⟨seen, mine⟩ := findAcknowledgement_some found
    by_cases same : acknowledgementMatches existing (acknowledgement.facts intentId)
    · simp only [if_pos same]
      exact fun last further => Answered.found (kept.later further) (further.mem_visible seen) same
    · simp only [if_neg same]
      refine fun last further => Answered.raise (kept.later further) _ fun row before matched => same ?_
      obtain ⟨record, rfl, own, equal⟩ := matches_acknowledgement matched
      have one : Row.acknowledgement record = .acknowledgement existing := by
        apply kept.sound.formed.eq_of_clash (.acknowledgement intentId) (kept.mem_visible before) seen
        · simp [ledgerTables, Row.keys, own]
        · simp [ledgerTables, Row.keys, show existing.facts.intentId = intentId from mine]
      cases one
      exact equal
  | none =>
    have new : ∀ row ∈ start.visible client, ¬(LedgerCall.recordInitialAcknowledgement intentId acknowledgement).Matches row := by
      intro row before matched
      obtain ⟨record, rfl, own, -⟩ := matches_acknowledgement matched
      exact findAcknowledgement_none found (kept.mem_visible before) own
    apply kept.read
    intro read _ keptRead
    cases findProviderOrder client (acknowledgement.facts intentId).venue (acknowledgement.facts intentId).providerOrderId read with
    | some other => exact fun last further => Answered.raise (keptRead.later further) _ new
    | none => exact fun last further => Answered.raise (keptRead.later further) _ new

theorem insertAcknowledgement_keeps (ready : LedgerReady client start store) (locked : Locked client intent store)
    (named : intent.id = intentId) (venue : intent.facts.venue = acknowledgement.venue)
    (order : intent.facts.clientOrderId = acknowledgement.clientOrderId)
    (covers : acknowledgement.filledQuantity.1 + acknowledgement.remainingQuantity.1 = intent.facts.quantity.1) :
    (insertAcknowledgement client (acknowledgement.facts intentId)).Keeps (LedgerRely client) (LedgerGuar client)
      (Answered client (.recordInitialAcknowledgement intentId acknowledgement) start) store := by
  have hasIntent : ∀ row, (LedgerCall.recordInitialAcknowledgement intentId acknowledgement).Matches row →
      RowKey.acknowledgement intentId ∈ row.keys := by
    intro row matched
    obtain ⟨record, rfl, own, -⟩ := matches_acknowledgement matched
    simp [Row.keys, own]
  apply ready.insert
  · intro later moment rely
    left
    rw [show ledgerTables.guard (.acknowledgement ⟨acknowledgement.facts intentId, moment.now⟩) = intentId from rfl, ← named]
    exact (locked.later rely).held
  · exact fun later moment rely kept _ => canonicalAcknowledgement_keeps kept
  · intro later moment after kept free failed last further
    refine Answered.failed (failed.later further) _ (fun row sees matched => ?_) (Or.inl rfl)
    exact free row (kept.mem_visible sees) (.acknowledgement intentId)
      (by simp [ledgerTables, Row.keys, VenueInitialAcknowledgement.facts]) rfl (hasIntent row matched)
  · intro later created after rely kept apart writing
    have new : ∀ row ∈ start.visible client, ¬(LedgerCall.recordInitialAcknowledgement intentId acknowledgement).Matches row := by
      intro row sees matched
      exact apart row (kept.mem_visible sees) ⟨.acknowledgement intentId,
        by simp [ledgerTables, Row.keys, VenueInitialAcknowledgement.facts], hasIntent row matched⟩
    have fresh : ∀ row ∈ start.visible client,
        ¬(LedgerCall.recordInitialAcknowledgement intentId acknowledgement).SameKey client start row := by
      intro row sees keyed
      cases row with
      | intent record => cases keyed
      | event record => cases keyed
      | acknowledgement record =>
        rcases keyed with mine | ⟨sameVenue, sameOrder⟩
        · refine apart _ (kept.mem_visible sees) ⟨.acknowledgement intentId, ?_, ?_⟩
          · simp [ledgerTables, Row.keys, VenueInitialAcknowledgement.facts]
          · simp [ledgerTables, Row.keys, mine]
        · refine apart _ (kept.mem_visible sees)
            ⟨.providerOrder acknowledgement.venue acknowledgement.providerOrderId, ?_, ?_⟩
          · simp [ledgerTables, Row.keys, VenueInitialAcknowledgement.facts]
          · simp [ledgerTables, Row.keys, sameVenue, sameOrder]
    rw [show ledgerTables.guard (.acknowledgement ⟨acknowledgement.facts intentId, created.now⟩) = intentId from rfl] at writing
    have fits := fits_intent kept (locked.later rely).sees
    rw [named] at fits
    have covered : Fits (intentGroup intentId (later.visible client) ++
        [.acknowledgement ⟨acknowledgement.facts intentId, created.now⟩]) intent :=
      fits.append_acknowledgement venue.symm order.symm covers
    apply writing.read
    intro read still
    have seen : intentGroup intentId (read.visible client) = intentGroup intentId (later.visible client) ++
        [.acknowledgement ⟨acknowledgement.facts intentId, created.now⟩] := still.seen
    have counted : Fits (intentGroup intentId (read.visible client)) intent := by
      rw [seen]
      exact covered
    have last : maxSequence client (acknowledgement.facts intentId).intentId read = (eventsOf (intentGroup intentId (later.visible client) ++
        [.acknowledgement ⟨acknowledgement.facts intentId, created.now⟩])).length := by
      rw [← seen]
      exact maxSequence_eq counted
    apply still.insert
    · exact fun input => rfl
    · intro final input failed ending further
      exact Answered.failed (failed.later further) _ new (Or.inr fresh)
    · intro final input written
      apply written.read
      intro ending complete
      have own : Row.acknowledgement ⟨acknowledgement.facts intentId, created.now⟩ ∈ ending.visible client :=
        complete.mem_visible (by simp)
      have numbered : Fits (intentGroup intentId (later.visible client) ++
          [.acknowledgement ⟨acknowledgement.facts intentId, created.now⟩] ++
            [.event (acknowledgedEvent (acknowledgement.facts intentId)
              (maxSequence client (acknowledgement.facts intentId).intentId read + 1) created.now input.uuid)]) intent := by
        refine covered.append_event ?_ (by simp [acknowledgedEvent]) venue.symm (fun id member => ?_) (by simp [acknowledgedEvent])
        · rw [last]
          rfl
        · refine ⟨⟨acknowledgement.facts intentId, created.now⟩, ?_, by simpa [acknowledgedEvent] using member⟩
          exact mem_acknowledgementsOf.2 (by simp)
      cases found : findAcknowledgement client (acknowledgement.facts intentId).intentId ending with
      | none => exact absurd rfl (findAcknowledgement_none found own)
      | some record =>
        obtain ⟨seen, mine⟩ := findAcknowledgement_some found
        have one : Row.acknowledgement record = .acknowledgement ⟨acknowledgement.facts intentId, created.now⟩ := by
          apply complete.sound.formed.eq_of_clash (.acknowledgement intentId) seen own
          · simp [ledgerTables, Row.keys, show record.facts.intentId = intentId from mine]
          · simp [ledgerTables, Row.keys, VenueInitialAcknowledgement.facts]
        cases one
        intro close further
        exact Answered.written (complete.later further) (fun _ => ⟨intent, numbered⟩) (by simp) ⟨rfl, rfl⟩ fresh

theorem recordInitialAcknowledgement_keeps (ready : LedgerReady client start start) (intentId : String)
    (acknowledgement : VenueInitialAcknowledgement) :
    (recordInitialAcknowledgement client intentId acknowledgement).Keeps (LedgerRely client) (LedgerGuar client)
      (Answered client (.recordInitialAcknowledgement intentId acknowledgement) start) start := by
  apply ready.selectForUpdate
  · intro later intent found
    obtain ⟨sees, named⟩ := findIntent_some found
    exact ⟨_, sees, by simp [ledgerTables, Row.keys, named]⟩
  · intro later kept missing last further
    refine Answered.raise (kept.later further) _ fun row before matched => ?_
    obtain ⟨record, rfl, own, -⟩ := matches_acknowledgement matched
    obtain ⟨intent, -, sees, named⟩ := intent_visible (kept.fits intentId) (kept.mem_visible before) own
    exact findIntent_none missing sees named
  · intro later intent locked found held same kept
    obtain ⟨sees, named⟩ := findIntent_some found
    rw [← same] at sees
    have lockedNow : Locked client intent locked := ⟨by rw [named]; exact held, sees⟩
    -- a matching acknowledgement has passed every check of the intent
    have passes : ∀ row ∈ start.visible client, (LedgerCall.recordInitialAcknowledgement intentId acknowledgement).Matches row →
        intent.facts.venue = acknowledgement.venue ∧ intent.facts.clientOrderId = acknowledgement.clientOrderId ∧
          acknowledgedQuantity acknowledgement = intent.facts.quantity.1 := by
      intro row before matched
      obtain ⟨record, rfl, own, equal, -⟩ := matches_acknowledgement matched
      have fields := equal
      simp only [VenueInitialAcknowledgement.facts, AcknowledgementFacts.mk.injEq] at fields
      obtain ⟨-, venue, order, -, -, filled, remaining, -⟩ := fields
      obtain ⟨sameVenue, sameOrder, covers⟩ := (fits_intent kept sees).acknowledged record
        (mem_acknowledgementsOf.2 (Store.mem_group.2 ⟨kept.mem_visible before, own.trans named.symm⟩))
      refine ⟨sameVenue.symm.trans venue, sameOrder.symm.trans order, ?_⟩
      rw [acknowledgedQuantity_eq, ← filled, ← remaining]
      exact covers
    by_cases venue : intent.facts.venue ≠ acknowledgement.venue
    · simp only [if_pos venue]
      exact fun last further => Answered.raise (kept.later further) _ fun row before matched => venue (passes row before matched).1
    · simp only [if_neg venue]
      by_cases order : intent.facts.clientOrderId ≠ acknowledgement.clientOrderId
      · simp only [if_pos order]
        exact fun last further => Answered.raise (kept.later further) _ fun row before matched => order (passes row before matched).2.1
      · simp only [if_neg order]
        by_cases covers : acknowledgedQuantity acknowledgement ≠ intent.facts.quantity.1
        · simp only [if_pos covers]
          exact fun last further => Answered.raise (kept.later further) _ fun row before matched =>
            covers (passes row before matched).2.2
        · simp only [if_neg covers]
          have sameVenue : intent.facts.venue = acknowledgement.venue := of_not_not venue
          have sameOrder : intent.facts.clientOrderId = acknowledgement.clientOrderId := of_not_not order
          have exactly : acknowledgedQuantity acknowledgement = intent.facts.quantity.1 := of_not_not covers
          rw [acknowledgedQuantity_eq] at exactly
          have facts : acknowledgementFacts intent acknowledgement = acknowledgement.facts intentId := by
            simp [acknowledgementFacts, VenueInitialAcknowledgement.facts, named, sameVenue, sameOrder]
          rw [facts]
          exact insertAcknowledgement_keeps kept lockedNow named sameVenue sameOrder exactly

end RecordInitialAcknowledgement

theorem ledger_keeps (ready : LedgerReady client start start) (call : LedgerCall) :
    (VenueExecutionLedger client call).Keeps (LedgerRely client) (LedgerGuar client) (Answered client call start) start := by
  cases call with
  | recordIntent intent provenance => exact recordIntent_keeps ready intent provenance
  | recordEvent request => exact recordEvent_keeps ready request
  | recordInitialAcknowledgement intentId acknowledgement => exact recordInitialAcknowledgement_keeps ready intentId acknowledgement

end Callisto.Execution

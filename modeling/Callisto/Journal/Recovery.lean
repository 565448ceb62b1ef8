import Callisto.Journal.Replay

/-! What survives crashes of the journal: every intent that returned and was not closed. -/

namespace Callisto.Journal

open Callisto.Library JsonText Runs

section Crashes

variable (lower : String → String)

/-- The journal with its history: the records of all calls, also of those that crashed, and for each key without a terminal result
since, the intents that may be its open one: the last that returned and those that crashed after it. -/
structure History where
  journal : IntentJournal
  attempted : List Record
  owed : Key → List Record

def noHistory : History := ⟨noJournal, [], fun _ => []⟩

def owedAfter (owed : Key → List Record) (call : Call) : Key → List Record :=
  if call.isIntent then Function.update owed call.key [call.record lower]
  else if (call.record lower).isTerminal lower then Function.update owed call.key []
  else owed

def owedCrashed (owed : Key → List Record) (call : Call) : Key → List Record :=
  if call.isIntent then
    Function.update owed call.key (if owed call.key = [] then [] else owed call.key ++ [call.record lower])
  else if (call.record lower).isTerminal lower then Function.update owed call.key []
  else owed

def historyStep (history : History) (step : JournalStep) : History where
  journal := journalStep lower history.journal step
  attempted := match step with
    | .call call | .crash (some call) _ _ => history.attempted ++ [call.record lower]
    | _ => history.attempted
  owed := match step with
    | .call call => owedAfter lower history.owed call
    | .crash (some call) _ _ => owedCrashed lower history.owed call
    | _ => history.owed

/-- Every owed intent is open with its record, and every open one was recorded by a call. -/
structure MemorySound (attempted : List Record) (owed : Key → List Record) (memory : Memory) : Prop where
  owed : ∀ key, owed key ≠ [] → ∃ record ∈ owed key, memory.openRecords.get? key = some record
  known : ∀ key record, memory.openRecords.get? key = some record →
    record ∈ attempted ∧ record.isIntent = true ∧ record.key = some key

def Recovered (history : History) : Prop := MemorySound history.attempted history.owed history.journal.memory

/-- No call appends to a file that ends in a torn line, and an intent names its trader and signal. -/
def WholeAppend (history : History) : JournalStep → Prop
  | .call call => (history.journal.text = [] ∨ history.journal.text.getLast? = some '\n') ∧
      (call.isIntent = true → call.key.1 ≠ "" ∧ call.key.2 ≠ "")
  | .crash (some _) _ _ => history.journal.text = [] ∨ history.journal.text.getLast? = some '\n'
  | _ => True

instance (history : History) : ∀ step, Decidable (WholeAppend history step)
  | .call call => inferInstanceAs (Decidable ((history.journal.text = [] ∨ history.journal.text.getLast? = some '\n') ∧
      (call.isIntent = true → call.key.1 ≠ "" ∧ call.key.2 ≠ "")))
  | .crash (some _) _ _ => inferInstanceAs (Decidable (history.journal.text = [] ∨ history.journal.text.getLast? = some '\n'))
  | .crash none _ _ => isTrue trivial
  | .restart => isTrue trivial

/-- The last line of a file may be the front of a line that a call wrote. -/
def Torn (attempted : List Record) (torn : List Char) : Prop :=
  torn = [] ∨ ∃ record ∈ attempted, ∃ more, more ≠ [] ∧ line record = torn ++ more

/-- A file of whole lines and a torn one, with a load that finds every owed intent. -/
def Recoverable (attempted : List Record) (owed : Key → List Record) (text : List Char) : Prop :=
  (∃ (kept : List Record) (torn : List Char), text = kept.flatMap line ++ torn ∧ (∀ record ∈ kept, record ∈ attempted) ∧ Torn attempted torn) ∧
    MemorySound attempted owed (load lower text)

/-- However much of what is not synced a crash takes, a load finds every owed intent. -/
structure Durable (history : History) : Prop where
  flat : ∀ record ∈ history.attempted, Flat record
  texts : ∀ count, history.journal.synced ≤ count → Recoverable lower history.attempted history.owed (history.journal.text.take count)
  recovered : Recovered history

theorem torn_newline {attempted : List Record} (flat : ∀ record ∈ attempted, Flat record) {torn : List Char} (cut : Torn attempted torn) :
    '\n' ∉ torn := by
  cases cut with
  | inl none_ =>
    rw [none_]
    exact List.not_mem_nil
  | inr front =>
    obtain ⟨record, member, more, lost, same⟩ := front
    obtain ⟨kept, last, rfl⟩ : ∃ kept last, more = kept ++ [last] := ⟨_, _, (List.dropLast_append_getLast lost).symm⟩
    unfold line at same
    rw [← List.append_assoc] at same
    have text := (List.append_inj' same rfl).1
    intro inside
    apply record_newline (flat record member)
    rw [text]
    exact List.mem_append_left _ inside

variable {memory : Memory}

theorem MemorySound.apply {attempted attempted' : List Record} {owed owed' : Key → List Record} {record : Record}
    (sound : MemorySound attempted owed memory) (more : ∀ old ∈ attempted, old ∈ attempted') (new : record ∈ attempted')
    (intents : ∀ key, record.key = some key → record.isIntent = true → owed' key ≠ [] → record ∈ owed' key)
    (ends : ∀ key, record.key = some key → record.isIntent = false → record.isTerminal lower = true → owed' key = [])
    (others : ∀ key, ¬(record.key = some key ∧ record.isIntent = true) → owed' key ≠ [] → owed key ≠ [] ∧ ∀ old ∈ owed key, old ∈ owed' key) :
    MemorySound attempted' owed' (memory.apply lower record) := by
  constructor
  · intro key due
    by_cases intent : record.key = some key ∧ record.isIntent = true
    · exact ⟨record, intents key intent.1 intent.2 due, by rw [apply_open, if_pos intent]⟩
    · have noEnd : ¬(record.key = some key ∧ record.isTerminal lower = true) := by
        intro terminal
        have plain : record.isIntent = false := by
          by_contra other
          exact intent ⟨terminal.1, Bool.not_eq_false _ ▸ other⟩
        exact due (ends key terminal.1 plain terminal.2)
      obtain ⟨before, within⟩ := others key intent due
      obtain ⟨old, member, found⟩ := sound.owed key before
      exact ⟨old, within old member, by rw [apply_open, if_neg intent, if_neg noEnd, found]⟩
  · intro key held found
    rw [apply_open] at found
    split_ifs at found with intent
    · cases found
      exact ⟨new, intent.2, intent.1⟩
    · obtain ⟨member, rest⟩ := sound.known key held found
      exact ⟨more held member, rest⟩

theorem MemorySound.mono {attempted attempted' : List Record} {owed owed' : Key → List Record}
    (sound : MemorySound attempted owed memory) (more : ∀ old ∈ attempted, old ∈ attempted')
    (others : ∀ key, owed' key ≠ [] → owed key ≠ [] ∧ ∀ old ∈ owed key, old ∈ owed' key) : MemorySound attempted' owed' memory := by
  constructor
  · intro key due
    obtain ⟨before, within⟩ := others key due
    obtain ⟨old, member, found⟩ := sound.owed key before
    exact ⟨old, within old member, found⟩
  · intro key held found
    obtain ⟨member, rest⟩ := sound.known key held found
    exact ⟨more held member, rest⟩

variable {lower} {attempted : List Record} {owed : Key → List Record} {text : List Char} {call : Call}

theorem key_of_record {key : Key} (own : (call.record lower).key = some key) : key = call.key := by
  rw [record_key] at own
  split_ifs at own
  exact (Option.some.inj own).symm

theorem sound_after (sound : MemorySound attempted owed memory)
    (named : call.isIntent = true → call.key.1 ≠ "" ∧ call.key.2 ≠ "") :
    MemorySound (attempted ++ [call.record lower]) (owedAfter lower owed call) (memory.apply lower (call.record lower)) := by
  apply sound.apply lower (fun old member => List.mem_append_left _ member) (List.mem_append_right _ (List.mem_singleton.2 rfl))
  · intro key own intent _
    rw [record_isIntent] at intent
    rw [key_of_record own, owedAfter, if_pos intent, Function.update_self]
    exact List.mem_singleton.2 rfl
  · intro key own plain terminal
    rw [record_isIntent] at plain
    rw [key_of_record own, owedAfter, if_neg (by rw [plain]; exact Bool.false_ne_true), if_pos terminal, Function.update_self]
  · intro key other due
    unfold owedAfter at due ⊢
    split at due
    case isTrue intent =>
      obtain ⟨trader, signal⟩ := named intent
      have different : key ≠ call.key := by
        intro same
        apply other
        rw [record_key, if_neg (fun either => either.elim trader signal), record_isIntent, same]
        exact ⟨rfl, intent⟩
      rw [if_pos intent]
      rw [Function.update_of_ne different] at due ⊢
      exact ⟨due, fun old member => member⟩
    case isFalse plain =>
      rw [if_neg plain]
      split at due
      case isTrue terminal =>
        rw [if_pos terminal]
        have different : key ≠ call.key := by
          intro same
          rw [same, Function.update_self] at due
          exact due rfl
        rw [Function.update_of_ne different] at due ⊢
        exact ⟨due, fun old member => member⟩
      case isFalse stays =>
        rw [if_neg stays]
        exact ⟨due, fun old member => member⟩

theorem owedCrashed_mono (key : Key) (due : owedCrashed lower owed call key ≠ []) :
    owed key ≠ [] ∧ ∀ old ∈ owed key, old ∈ owedCrashed lower owed call key := by
  unfold owedCrashed at due ⊢
  by_cases same : key = call.key
  · subst same
    split_ifs at due ⊢ with intent none_ terminal
    · rw [Function.update_self] at due
      exact absurd rfl due
    · rw [Function.update_self]
      exact ⟨none_, fun old member => List.mem_append_left _ member⟩
    · rw [Function.update_self] at due
      exact absurd rfl due
    · exact ⟨due, fun old member => member⟩
  · split_ifs at due ⊢
    · rw [Function.update_of_ne same] at due ⊢
      exact ⟨due, fun old member => member⟩
    · rw [Function.update_of_ne same] at due ⊢
      exact ⟨due, fun old member => member⟩
    · rw [Function.update_of_ne same] at due ⊢
      exact ⟨due, fun old member => member⟩
    · exact ⟨due, fun old member => member⟩

theorem sound_crashed (sound : MemorySound attempted owed memory) :
    MemorySound (attempted ++ [call.record lower]) (owedCrashed lower owed call) (memory.apply lower (call.record lower)) := by
  apply sound.apply lower (fun old member => List.mem_append_left _ member) (List.mem_append_right _ (List.mem_singleton.2 rfl))
  · intro key own intent due
    rw [record_isIntent] at intent
    rw [key_of_record own] at due ⊢
    unfold owedCrashed at due ⊢
    rw [if_pos intent, Function.update_self] at due ⊢
    split at due
    case isTrue => exact absurd rfl due
    case isFalse some_ =>
      rw [if_neg some_]
      exact List.mem_append_right _ (List.mem_singleton.2 rfl)
  · intro key own plain terminal
    rw [record_isIntent] at plain
    rw [key_of_record own, owedCrashed, if_neg (by rw [plain]; exact Bool.false_ne_true), if_pos terminal, Function.update_self]
  · exact fun key _ due => owedCrashed_mono key due

theorem Recoverable.mono {attempted' : List Record} {owed' : Key → List Record} (recoverable : Recoverable lower attempted owed text)
    (more : ∀ old ∈ attempted, old ∈ attempted')
    (others : ∀ key, owed' key ≠ [] → owed key ≠ [] ∧ ∀ old ∈ owed key, old ∈ owed' key) : Recoverable lower attempted' owed' text := by
  obtain ⟨⟨kept, torn, split, known, cut⟩, sound⟩ := recoverable
  refine ⟨⟨kept, torn, split, fun record member => more record (known record member), ?_⟩, sound.mono more others⟩
  cases cut with
  | inl none_ => exact Or.inl none_
  | inr front =>
    obtain ⟨record, member, rest⟩ := front
    exact Or.inr ⟨record, more record member, rest⟩

theorem Recoverable.whole (recoverable : Recoverable lower attempted owed text) (flat : ∀ record ∈ attempted, Flat record)
    (ends : text = [] ∨ text.getLast? = some '\n') :
    ∃ kept : List Record, text = kept.flatMap line ∧ ∀ record ∈ kept, record ∈ attempted := by
  obtain ⟨⟨kept, torn, split, known, cut⟩, -⟩ := recoverable
  by_cases none_ : torn = []
  · exact ⟨kept, by rw [split, none_, List.append_nil], known⟩
  · exfalso
    have newline := torn_newline flat cut
    obtain ⟨front, last, rfl⟩ : ∃ front last, torn = front ++ [last] := ⟨_, _, (List.dropLast_append_getLast none_).symm⟩
    cases ends with
    | inl empty =>
      rw [empty] at split
      have nothing := (List.append_eq_nil_iff.1 split.symm).2
      exact none_ nothing
    | inr last_ =>
      rw [split, ← List.append_assoc, List.getLast?_append_of_ne_nil _ (List.cons_ne_nil _ _), List.getLast?_singleton] at last_
      apply newline
      rw [Option.some.inj last_]
      exact List.mem_append_right _ (List.mem_singleton.2 rfl)

theorem recoverable_line {kept : List Record} {record : Record} (flat : ∀ old ∈ attempted, Flat old) (known : ∀ old ∈ kept, old ∈ attempted)
    (new : record ∈ attempted) (sound : MemorySound attempted owed ((load lower (kept.flatMap line)).apply lower record)) :
    Recoverable lower attempted owed (kept.flatMap line ++ line record) := by
  have all : ∀ old ∈ kept ++ [record], old ∈ attempted := by
    intro old member
    cases List.mem_append.1 member with
    | inl inside => exact known old inside
    | inr single => exact List.mem_singleton.1 single ▸ new
  have text : kept.flatMap line ++ line record = (kept ++ [record]).flatMap line := by
    rw [List.flatMap_append, List.flatMap_singleton]
  rw [text]
  refine ⟨⟨kept ++ [record], [], (List.append_nil _).symm, all, Or.inl rfl⟩, ?_⟩
  rw [load_whole fun old member => flat old (all old member), List.foldl_append, ← load_whole fun old member => flat old (known old member)]
  exact sound

theorem recoverable_front {kept : List Record} {record : Record} {torn more : List Char} (flat : ∀ old ∈ attempted, Flat old)
    (known : ∀ old ∈ kept, old ∈ attempted) (new : record ∈ attempted) (cut : line record = torn ++ more) (lost : more ≠ [])
    (with_ : MemorySound attempted owed ((load lower (kept.flatMap line)).apply lower record))
    (without : MemorySound attempted owed (load lower (kept.flatMap line))) :
    Recoverable lower attempted owed (kept.flatMap line ++ torn) := by
  have front : Torn attempted torn := Or.inr ⟨record, new, more, lost, cut⟩
  refine ⟨⟨kept, torn, rfl, known, front⟩, ?_⟩
  have flatKept : ∀ old ∈ kept, Flat old := fun old member => flat old (known old member)
  rw [load_records lower flatKept (torn_newline flat front), List.foldl_append, ← load_whole flatKept]
  cases readLine_torn cut lost with
  | inl whole =>
    rw [whole, readLine_dumps]
    exact with_
  | inr unread =>
    rw [unread]
    exact without

theorem recoverable_take {attempted' : List Record} {owed' : Key → List Record} {record : Record} {synced : ℕ}
    (texts : ∀ count, synced ≤ count → Recoverable lower attempted owed (text.take count))
    (ends : text = [] ∨ text.getLast? = some '\n') (flat : ∀ old ∈ attempted', Flat old) (more : ∀ old ∈ attempted, old ∈ attempted')
    (new : record ∈ attempted') (others : ∀ key, owed' key ≠ [] → owed key ≠ [] ∧ ∀ old ∈ owed key, old ∈ owed' key)
    (with_ : MemorySound attempted' owed' ((load lower text).apply lower record)) :
    ∀ count, synced ≤ count → Recoverable lower attempted' owed' ((text ++ line record).take count) := by
  intro count behind
  have flatOld : ∀ old ∈ attempted, Flat old := fun old member => flat old (more old member)
  by_cases short : count ≤ text.length
  · rw [List.take_append_of_le_length short]
    exact (texts count behind).mono more others
  · have whole : Recoverable lower attempted owed text := by
      have all := texts (max synced text.length) (le_max_left _ _)
      rw [List.take_of_length_le (le_max_right _ _)] at all
      exact all
    have without := (whole.mono more others).2
    obtain ⟨kept, split, known⟩ := whole.whole flatOld ends
    have knownNow : ∀ old ∈ kept, old ∈ attempted' := fun old member => more old (known old member)
    rw [List.take_append, List.take_of_length_le (by omega)]
    subst split
    by_cases full : (line record).length ≤ count - (kept.flatMap line).length
    · rw [List.take_of_length_le full]
      exact recoverable_line flat knownNow new with_
    · have cut := (List.take_append_drop (count - (kept.flatMap line).length) (line record)).symm
      have lost : (line record).drop (count - (kept.flatMap line).length) ≠ [] := by
        intro empty
        have none_ := List.drop_eq_nil_iff.1 empty
        omega
      exact recoverable_front flat knownNow new cut lost with_ without

theorem recoverable_compact (flat : ∀ record ∈ attempted, Flat record) (sound : MemorySound attempted owed memory) (count : ℕ)
    (all : (compactedText memory).length ≤ count) : Recoverable lower attempted owed ((compactedText memory).take count) := by
  have keyed : Keyed memory := by
    intro entry member
    exact (sound.known entry.1 entry.2 (Dict.get?_of_mem member)).2
  have known : ∀ record ∈ memory.openIntents, record ∈ attempted := by
    intro record member
    obtain ⟨entry, inside, rfl⟩ := List.mem_map.1 member
    exact (sound.known entry.1 entry.2 (Dict.get?_of_mem inside)).1
  rw [List.take_of_length_le all]
  refine ⟨⟨memory.openIntents, [], (List.append_nil _).symm, known, Or.inl rfl⟩, ?_⟩
  have read : ∀ key, (load lower (compactedText memory)).openRecords.get? key = memory.openRecords.get? key := by
    intro key
    rw [compactedText, load_whole fun record member => flat record (known record member)]
    exact replay_open lower keyed key
  constructor
  · intro key due
    rw [read]
    exact sound.owed key due
  · intro key record found
    rw [read] at found
    exact sound.known key record found

variable (lower) in
theorem Durable.start : Durable lower noHistory := by
  have sound : MemorySound [] (fun _ => []) noMemory :=
    ⟨fun _ due => absurd rfl due, fun _ _ found => nomatch found⟩
  constructor
  · exact fun _ member => absurd member List.not_mem_nil
  · intro count _
    refine ⟨⟨[], [], List.take_nil, fun _ member => absurd member List.not_mem_nil, Or.inl rfl⟩, ?_⟩
    rw [show noHistory.journal.text.take count = [] from List.take_nil]
    exact sound
  · exact sound

variable (lower)

theorem flat_append (flat : ∀ record ∈ attempted, Flat record) (call : Call) :
    ∀ record ∈ attempted ++ [call.record lower], Flat record := by
  intro record member
  cases List.mem_append.1 member with
  | inl old => exact flat record old
  | inr new => exact List.mem_singleton.1 new ▸ record_flat lower call

theorem durable_reopen {synced count : ℕ} (flat : ∀ record ∈ attempted, Flat record)
    (texts : ∀ count, synced ≤ count → Recoverable lower attempted owed (text.take count)) (behind : synced ≤ count) :
    Durable lower ⟨reopen lower (text.take count) synced, attempted, owed⟩ := by
  constructor
  · exact flat
  · intro other behindOther
    show Recoverable lower attempted owed ((text.take count).take other)
    rw [List.take_take]
    exact texts _ (le_min behindOther behind)
  · exact (texts count behind).2

theorem Durable.whole {history : History} (durable : Durable lower history) :
    Recoverable lower history.attempted history.owed history.journal.text := by
  have all := durable.texts (max history.journal.synced history.journal.text.length) (le_max_left _ _)
  rw [List.take_of_length_le (le_max_right _ _)] at all
  exact all

theorem call_durable {history : History} (durable : Durable lower history) (safe : WholeAppend history (.call call)) :
    Durable lower (historyStep lower history (.call call)) := by
  obtain ⟨ends, named⟩ := safe
  have flat := flat_append lower durable.flat call
  have memory := @sound_after lower _ _ _ call durable.recovered named
  have loaded := @sound_after lower _ _ _ call durable.whole.2 named
  have new : call.record lower ∈ history.attempted ++ [call.record lower] := List.mem_append_right _ (List.mem_singleton.2 rfl)
  have more : ∀ old ∈ history.attempted, old ∈ history.attempted ++ [call.record lower] := fun old member => List.mem_append_left _ member
  show Durable lower ⟨recordCall lower history.journal call, _, owedAfter lower history.owed call⟩
  unfold recordCall
  by_cases due : compactionDue (append lower history.journal call) = true
  · simp only [if_pos due]
    constructor
    · exact flat
    · intro count all
      exact recoverable_compact flat memory count all
    · exact memory
  · simp only [if_neg due]
    constructor
    · exact flat
    · intro count behind
      show Recoverable lower _ _ ((history.journal.text ++ line (call.record lower)).take count)
      cases call with
      | intent intent =>
        have full : (history.journal.text ++ line ((Call.intent intent).record lower)).length ≤ count := behind
        obtain ⟨kept, split, known⟩ := durable.whole.whole durable.flat ends
        rw [List.take_of_length_le full, split]
        exact recoverable_line flat (fun old member => more old (known old member)) new (split ▸ loaded)
      | result result =>
        have stays : ∀ key, owedAfter lower history.owed (.result result) key ≠ [] →
            history.owed key ≠ [] ∧ ∀ old ∈ history.owed key, old ∈ owedAfter lower history.owed (.result result) key := by
          intro key due
          exact @owedCrashed_mono lower _ (.result result) key due
        exact recoverable_take durable.texts ends flat more new stays loaded count behind
    · exact memory

theorem crash_durable {history : History} {kept : ℕ} {replaced : Bool} (durable : Durable lower history)
    (safe : WholeAppend history (.crash (some call) kept replaced)) :
    Durable lower (historyStep lower history (.crash (some call) kept replaced)) := by
  have flat := flat_append lower durable.flat call
  have memory := @sound_crashed lower _ _ _ call durable.recovered
  have loaded := @sound_crashed lower _ _ _ call durable.whole.2
  have new : call.record lower ∈ history.attempted ++ [call.record lower] := List.mem_append_right _ (List.mem_singleton.2 rfl)
  have more : ∀ old ∈ history.attempted, old ∈ history.attempted ++ [call.record lower] := fun old member => List.mem_append_left _ member
  have texts := recoverable_take durable.texts safe flat more new owedCrashed_mono loaded
  unfold historyStep journalStep
  simp only
  split
  case isTrue =>
    have compacted := durable_reopen lower flat (fun count all => @recoverable_compact lower _ _ _ flat memory count all)
      (le_refl (compactedText _).length)
    rw [List.take_length] at compacted
    exact compacted
  case isFalse => exact durable_reopen lower flat texts (le_max_left _ _)

theorem historyStep_durable {history : History} (step : JournalStep) (durable : Durable lower history) (safe : WholeAppend history step) :
    Durable lower (historyStep lower history step) := by
  cases step with
  | call call => exact call_durable lower durable safe
  | restart =>
    have reopened := durable_reopen lower durable.flat durable.texts (le_max_left history.journal.synced history.journal.text.length)
    rw [List.take_of_length_le (le_max_right _ _)] at reopened
    exact reopened
  | crash inFlight kept replaced =>
    cases inFlight with
    | some call => exact crash_durable lower durable safe
    | none =>
      have reopened := durable_reopen lower durable.flat durable.texts (le_max_left history.journal.synced kept)
      have text : crashedText lower history.journal none kept = history.journal.text.take (max history.journal.synced kept) := by
        rw [crashedText]
        exact congrArg _ (List.append_nil _)
      rw [← text] at reopened
      exact reopened

/-- While no call appends to a torn line, every load after whatever crashes finds the intents that returned and were not closed,
each with its own record, and no others. -/
theorem journal_recovers (steps : List JournalStep) (safe : Meets (historyStep lower) WholeAppend noHistory steps) :
    Always (historyStep lower) Recovered noHistory steps := by
  have durable := Runs.always_of_meets (fun _ step held ok => historyStep_durable lower step held ok) (Durable.start lower) safe
  exact fun first isPrefix => (durable first isPrefix).recovered

end Crashes

section Runs

theorem isNumber_one : isNumber ['1'] = true := by decide

theorem isNumber_two : isNumber ['2'] = true := by decide

def intentOf (signal : String) : Call := .intent ⟨"t", signal, "k", none, none, none, none, none, ⟨['1'], isNumber_one⟩⟩

def executedOf (signal : String) : Call := .result ⟨"t", signal, "executed", none, none, ⟨['2'], isNumber_two⟩⟩

/-- An intent returns, the crash takes its result, and another intent follows. -/
def lostResult : List JournalStep := [.call (intentOf "a"), .crash (some (executedOf "a")) 0 false, .call (intentOf "b"), .restart]

theorem journal_recovers_lost_result : Always (historyStep id) Recovered noHistory lostResult :=
  journal_recovers id lostResult (by decide +kernel)

/-- A crash tears the line of an intent; the next intent returns and is gone after a restart. -/
theorem torn_line_loses_intent :
    ¬Always (historyStep id) Recovered noHistory [.crash (some (intentOf "a")) 5 false, .call (intentOf "b"), .restart] := by
  intro recovered
  have last := (recovered _ List.prefix_rfl).owed ("t", "b") (by decide +kernel)
  obtain ⟨record, -, found⟩ := last
  have gone : ((run (historyStep id) noHistory [.crash (some (intentOf "a")) 5 false, .call (intentOf "b"),
      .restart]).journal.memory.openRecords.get? ("t", "b")).isNone = true := by decide +kernel
  rw [found] at gone
  cases gone

end Runs

end Callisto.Journal

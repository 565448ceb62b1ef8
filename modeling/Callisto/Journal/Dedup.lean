import Callisto.Journal.Replay

/-! The journal as the authority on what was fired before, over restarts without a crash. -/

namespace Callisto.Journal

open Callisto.Library JsonText Runs

section Processes

variable (lower : String → String)

/-- The journal with the calls so far, the keys that the process recorded or loaded, and those that it leaves to the next one. -/
structure Firings where
  journal : IntentJournal
  calls : List Call
  known : List Key
  lasting : List Key

def noFirings : Firings := ⟨noJournal, [], [], []⟩

/-- Whether the last intent or terminal result of a key is a terminal result. -/
def finishedBy (key : Key) (finished : Bool) (call : Call) : Bool :=
  if call.key = key then
    if call.isIntent then false else finished || (call.record lower).isTerminal lower
  else finished

def finished (calls : List Call) (key : Key) : Bool := calls.foldl (finishedBy lower key) false

/-- An intent that the index takes up: one that names its trader and its signal. -/
def Call.fires (call : Call) : Bool := call.isIntent && call.key.1 ≠ "" && call.key.2 ≠ ""

def firedKeys (keys : List Key) (call : Call) : List Key := if call.fires then call.key :: keys else keys

/-- A compaction leaves out the keys that are finished, and a restart makes the process know what is left. -/
def firingStep (firings : Firings) (step : JournalStep) : Firings :=
  let journal := journalStep lower firings.journal step
  match step with
  | .call call =>
    let calls := firings.calls ++ [call]
    let lasting := firedKeys firings.lasting call
    { journal := journal
      calls := calls
      known := firedKeys firings.known call
      lasting :=
        if compactionDue (append lower firings.journal call) then lasting.filter fun key => !finished lower calls key
        else lasting }
  | _ => { firings with journal := journal, known := firings.lasting }

def Clean : JournalStep → Prop
  | .crash _ _ _ => False
  | _ => True

instance : ∀ step, Decidable (Clean step)
  | .crash _ _ _ => isFalse id
  | .call _ => isTrue trivial
  | .restart => isTrue trivial

structure Deduped (fired : List Key) (calls : List Call) (memory : Memory) : Prop where
  known : ∀ key ∈ fired, memory.hasIntent key = true
  closed : ∀ key, finished lower calls key = true → memory.openRecords.get? key = none

structure Indexed (fired : List Key) (calls : List Call) (memory : Memory) : Prop extends Deduped lower fired calls memory where
  named : ∀ key ∈ fired, key.1 ≠ "" ∧ key.2 ≠ ""
  opened : ∀ key ∈ fired, finished lower calls key = false → (memory.openRecords.get? key).isSome = true

/-- The file is of whole lines; the process knows its keys, and a load of the file those that last. -/
structure Remembered (firings : Firings) : Prop where
  lines : ∃ kept : List Record, firings.journal.text = kept.flatMap line ∧ ∀ record ∈ kept, Flat record
  keyed : Keyed firings.journal.memory
  flat : ∀ record ∈ firings.journal.memory.openIntents, Flat record
  lasting : firings.lasting ⊆ firings.known
  memory : Indexed lower firings.known firings.calls firings.journal.memory
  loaded : Indexed lower firings.lasting firings.calls (load lower firings.journal.text)

theorem foldl_index (records : List Record) (memory : Memory) (key : Key) :
    ((records.foldl (Memory.apply lower) memory).index.get? key).isSome = true ↔ (memory.index.get? key).isSome = true ∨
      ∃ record ∈ records, record.key = some key ∧ (record.isIntent = true ∨ record.text "k" = some "result") := by
  induction records generalizing memory with
  | nil => simp
  | cons record rest ih =>
    rw [List.foldl_cons, ih, apply_index, or_assoc]
    simp

theorem compacted_index {memory : Memory} (keyed : Keyed memory) (flat : ∀ record ∈ memory.openIntents, Flat record) (key : Key) :
    (load lower (compactedText memory)).hasIntent key = true ↔ (memory.openRecords.get? key).isSome = true := by
  unfold Memory.hasIntent
  rw [compactedText, load_whole flat, foldl_index]
  constructor
  · intro either
    cases either with
    | inl nothing => cases nothing
    | inr listed =>
      obtain ⟨record, member, own, -⟩ := listed
      obtain ⟨entry, inside, rfl⟩ := List.mem_map.1 member
      have same : entry.1 = key := Option.some.inj ((keyed entry inside).2.symm.trans own)
      rw [← same, Dict.get?_of_mem inside]
      rfl
  · intro held
    obtain ⟨record, found⟩ := Option.isSome_iff_exists.1 held
    obtain ⟨intent, own⟩ := keyed.of_get? found
    exact Or.inr ⟨record, Dict.mem_values_of_get? found, own, Or.inl intent⟩

variable {lower} {calls : List Call} {memory : Memory} {call : Call}

theorem finished_append (key : Key) : finished lower (calls ++ [call]) key = finishedBy lower key (finished lower calls key) call := by
  rw [finished, List.foldl_append]
  rfl

theorem text_ne {record : Record} {name text : String} (held : record.text name = some text) : text ≠ "" := by
  unfold Record.text at held
  split at held
  · split at held
    · cases held
    · cases held
      assumption
  · cases held

theorem key_ne {record : Record} {key : Key} (held : record.key = some key) : key.1 ≠ "" ∧ key.2 ≠ "" := by
  unfold Record.key at held
  split at held
  case h_1 trader signal traderText signalText =>
    cases held
    exact ⟨text_ne traderText, text_ne signalText⟩
  case h_2 => cases held

theorem mem_firedKeys {fired : List Key} {key : Key} :
    key ∈ firedKeys fired call ↔ (call.fires = true ∧ call.key = key) ∨ key ∈ fired := by
  unfold firedKeys
  split
  · next fires => simp [fires, eq_comm]
  · next silent => simp [silent]

theorem fires_record (fires : call.fires = true) : (call.record lower).key = some call.key ∧ (call.record lower).isIntent = true := by
  simp only [Call.fires, Bool.and_eq_true, decide_eq_true_eq] at fires
  obtain ⟨⟨intent, trader⟩, signal⟩ := fires
  rw [record_key, if_neg (fun either => either.elim trader signal), record_isIntent]
  exact ⟨rfl, intent⟩

theorem record_key_ne {key : Key} (other : call.key ≠ key) : ¬(call.record lower).key = some key := by
  intro same
  rw [record_key] at same
  split_ifs at same
  exact other (Option.some.inj same)

theorem Indexed.apply {fired : List Key} (indexed : Indexed lower fired calls memory) (keyed : Keyed memory) :
    Indexed lower (firedKeys fired call) (calls ++ [call]) (memory.apply lower (call.record lower)) where
  known key member := by
    unfold Memory.hasIntent
    rw [apply_index]
    cases mem_firedKeys.1 member with
    | inl new =>
      obtain ⟨fires, rfl⟩ := new
      exact Or.inr ⟨(fires_record fires).1, Or.inl (fires_record fires).2⟩
    | inr before => exact Or.inl (indexed.known key before)
  named key member := by
    cases mem_firedKeys.1 member with
    | inl new =>
      have keyed : (call.record lower).key = some call.key := (fires_record new.1).1
      exact key_ne (new.2 ▸ keyed)
    | inr before => exact indexed.named key before
  opened key member unfinished := by
    rw [finished_append] at unfinished
    unfold finishedBy at unfinished
    rw [apply_open]
    by_cases own : call.key = key
    · rw [if_pos own] at unfinished
      cases mem_firedKeys.1 member with
      | inl new =>
        rw [if_pos ⟨own ▸ (fires_record new.1).1, (fires_record new.1).2⟩]
        rfl
      | inr before =>
        obtain ⟨trader, signal⟩ := indexed.named key before
        have same : (call.record lower).key = some key := by
          rw [record_key, own, if_neg (fun either => either.elim trader signal)]
        rw [record_isIntent]
        split at unfinished
        case isTrue intent =>
          rw [if_pos ⟨same, intent⟩]
          rfl
        case isFalse plain =>
          obtain ⟨still, running⟩ := Bool.or_eq_false_iff.1 unfinished
          rw [if_neg (fun both => plain both.2), if_neg (fun both => Bool.eq_false_iff.1 running both.2)]
          exact indexed.opened key before still
    · rw [if_neg own] at unfinished
      cases mem_firedKeys.1 member with
      | inl new => exact absurd new.2 own
      | inr before =>
        rw [if_neg (fun both => record_key_ne own both.1), if_neg (fun both => record_key_ne own both.1)]
        exact indexed.opened key before unfinished
  closed key done_ := by
    rw [finished_append] at done_
    unfold finishedBy at done_
    rw [apply_open, record_isIntent]
    by_cases own : call.key = key
    · rw [if_pos own] at done_
      split at done_
      case isTrue => cases done_
      case isFalse plain =>
        rw [if_neg (fun both => plain both.2)]
        by_cases ends : (call.record lower).key = some key ∧ (call.record lower).isTerminal lower = true
        · rw [if_pos ends]
        · rw [if_neg ends]
          rw [Bool.or_eq_true] at done_
          cases done_ with
          | inl before => exact indexed.closed key before
          | inr terminal =>
            -- nothing is open under the name of a result that the index ignores
            have ignored : (call.record lower).key ≠ some key := fun same => ends ⟨same, terminal⟩
            by_contra some_
            obtain ⟨record, found⟩ := Option.ne_none_iff_exists'.1 some_
            obtain ⟨trader, signal⟩ := key_ne (keyed.of_get? found).2
            apply ignored
            rw [record_key, own, if_neg (fun either => either.elim trader signal)]
    · rw [if_neg own] at done_
      rw [if_neg (fun both => record_key_ne own both.1), if_neg (fun both => record_key_ne own both.1)]
      exact indexed.closed key done_

theorem apply_flat (flat : ∀ record ∈ memory.openIntents, Flat record) (call : Call) :
    ∀ record ∈ (memory.apply lower (call.record lower)).openIntents, Flat record := by
  intro record member
  obtain ⟨entry, inside, rfl⟩ := List.mem_map.1 member
  have found := Dict.get?_of_mem inside
  rw [apply_open] at found
  split_ifs at found
  · rw [← Option.some.inj found]
    exact record_flat lower call
  · exact flat _ (Dict.mem_values_of_get? found)

theorem noFirings_remembered : Remembered lower noFirings := by
  have none_ : Indexed lower [] [] noMemory :=
    ⟨⟨fun _ member => absurd member List.not_mem_nil, fun _ _ => rfl⟩, fun _ member => absurd member List.not_mem_nil,
      fun _ member => absurd member List.not_mem_nil⟩
  constructor
  · exact ⟨[], rfl, fun _ member => absurd member List.not_mem_nil⟩
  · exact Dict.all_empty _
  · exact fun _ member => absurd member List.not_mem_nil
  · exact List.Subset.refl _
  · exact none_
  · exact none_

theorem Indexed.subset {fired some_ : List Key} (indexed : Indexed lower fired calls memory) (among : some_ ⊆ fired) :
    Indexed lower some_ calls memory :=
  ⟨⟨fun key member => indexed.known key (among member), indexed.closed⟩, fun key member => indexed.named key (among member),
    fun key member => indexed.opened key (among member)⟩

theorem Indexed.compacted {fired : List Key} (indexed : Indexed lower fired calls memory) (keyed : Keyed memory)
    (flat : ∀ record ∈ memory.openIntents, Flat record) :
    Indexed lower (fired.filter fun key => !finished lower calls key) calls (load lower (compactedText memory)) := by
  have opened : ∀ key, (load lower (compactedText memory)).openRecords.get? key = memory.openRecords.get? key := by
    intro key
    show (load lower (memory.openIntents.flatMap line)).openRecords.get? key = _
    rw [load_whole flat, replay_open lower keyed]
  have open_ : ∀ key ∈ fired.filter fun key => !finished lower calls key, (memory.openRecords.get? key).isSome = true := by
    intro key member
    obtain ⟨before, running⟩ := List.mem_filter.1 member
    exact indexed.opened key before (by simpa using running)
  constructor
  · constructor
    · exact fun key member => (compacted_index lower keyed flat key).2 (open_ key member)
    · intro key done_
      rw [opened]
      exact indexed.closed key done_
  · exact fun key member => indexed.named key (List.mem_of_mem_filter member)
  · intro key member _
    rw [opened]
    exact open_ key member

theorem firedKeys_subset {lasting known : List Key} (kept : lasting ⊆ known) : firedKeys lasting call ⊆ firedKeys known call :=
  fun _ member => mem_firedKeys.2 ((mem_firedKeys.1 member).imp_right fun before => kept before)

theorem call_remembered {firings : Firings} (remembered : Remembered lower firings) (call : Call) :
    Remembered lower (firingStep lower firings (.call call)) := by
  obtain ⟨⟨kept, text, flatKept⟩, keyed, flat, lasting, memory, loaded⟩ := remembered
  have memoryNow := @Indexed.apply lower _ _ call _ memory keyed
  have keyedNow := apply_keyed lower keyed (call.record lower)
  have flatNow := @apply_flat lower _ flat call
  have lastingNow := @firedKeys_subset call _ _ lasting
  unfold firingStep journalStep recordCall
  by_cases due : compactionDue (append lower firings.journal call) = true
  · simp only [if_pos due]
    constructor
    · exact ⟨_, rfl, flatNow⟩
    · exact keyedNow
    · exact flatNow
    · exact fun _ member => lastingNow (List.mem_of_mem_filter member)
    · exact memoryNow
    · exact (memoryNow.subset lastingNow).compacted keyedNow flatNow
  · simp only [if_neg due]
    have textNow : firings.journal.text ++ line (call.record lower) = (kept ++ [call.record lower]).flatMap line := by
      rw [text, List.flatMap_append, List.flatMap_singleton]
    have flatAll : ∀ record ∈ kept ++ [call.record lower], Flat record := by
      intro record member
      cases List.mem_append.1 member with
      | inl old => exact flatKept record old
      | inr new => exact List.mem_singleton.1 new ▸ record_flat lower call
    constructor
    · exact ⟨_, textNow, flatAll⟩
    · exact keyedNow
    · exact flatNow
    · exact lastingNow
    · exact memoryNow
    · show Indexed lower _ _ (load lower (firings.journal.text ++ line (call.record lower)))
      rw [textNow, load_whole flatAll, List.foldl_append, ← load_whole flatKept, ← text]
      exact loaded.apply (load_keyed lower _)

theorem firingStep_remembered {firings : Firings} (step : JournalStep) (remembered : Remembered lower firings)
    (clean : Clean step) : Remembered lower (firingStep lower firings step) := by
  cases step with
  | call call => exact call_remembered remembered call
  | restart =>
    obtain ⟨⟨kept, text, flatKept⟩, keyed, flat, lasting, memory, loaded⟩ := remembered
    constructor
    · exact ⟨kept, text, flatKept⟩
    · exact load_keyed lower _
    · intro record member
      obtain ⟨entry, inside, rfl⟩ := List.mem_map.1 member
      have found : (load lower firings.journal.text).openRecords.get? entry.1 = some entry.2 := Dict.get?_of_mem inside
      rw [text, load_whole flatKept] at found
      cases foldl_open lower found with
      | inl listed => exact flatKept _ listed
      | inr nothing => cases nothing
    · exact List.Subset.refl _
    · exact loaded
    · exact loaded
  | crash inFlight kept replaced => exact clean.elim

/-- A recorded intent is known until its process ends, and in every later process unless a compaction finds it finished; and a finished
one is not open until it is recorded again. -/
theorem journal_dedups (lower : String → String) (steps : List JournalStep) (clean : ∀ step ∈ steps, Clean step) :
    Always (firingStep lower) (fun firings => Deduped lower firings.known firings.calls firings.journal.memory) noFirings steps := by
  have remembered := Runs.always_of_meets (fun _ step held ok => firingStep_remembered step held ok)
    (@noFirings_remembered lower) (Meets.of_mem clean noFirings)
  exact fun first isPrefix => (remembered first isPrefix).memory.toDeduped

end Processes

section Runs

def firing (signal key : String) : Call := .intent ⟨"t", signal, key, none, none, none, none, none, ⟨['1'], by decide⟩⟩

def executed (signal : String) : Call := .result ⟨"t", signal, "executed", none, none, ⟨['2'], by decide⟩⟩

def finishedFiring : List JournalStep := [.call (firing "a" "k"), .restart, .call (executed "a"), .restart]

theorem journal_dedups_finished :
    Always (firingStep id) (fun firings => Deduped id firings.known firings.calls firings.journal.memory) noFirings finishedFiring :=
  journal_dedups id finishedFiring (by decide)

def longKey : String := String.ofList (List.replicate compactThresholdBytes 'a')

theorem line_long (signal key : String) : key.toList.length ≤ (line ((firing signal key).record id)).length := by
  have escaped := escape_length key.toList
  simp only [line, firing, Call.record, dumps, dumpFields, dumpMoreFields, dumpField, List.length_append, List.length_cons]
  omega

def compactedFiring (key : String) : List JournalStep := [.call (firing "a" "k"), .call (executed "a"), .call (firing "b" key)]

def executedFirst : IntentJournal := (run (firingStep id) noFirings [.call (firing "a" "k"), .call (executed "a")]).journal

theorem compacted_forgets {key : String} (long : compactThresholdBytes ≤ key.toList.length) :
    (run (firingStep id) noFirings (compactedFiring key ++ [.restart])).journal.memory.hasIntent ("t", "a") = false := by
  have first : Remembered id (firingStep id noFirings (.call (firing "a" "k"))) :=
    call_remembered noFirings_remembered _
  have second : Remembered id (firingStep id (firingStep id noFirings (.call (firing "a" "k"))) (.call (executed "a"))) :=
    call_remembered first _
  have keyed : Keyed executedFirst.memory := second.keyed
  have flat : ∀ record ∈ executedFirst.memory.openIntents, Flat record := second.flat
  have notOpen : executedFirst.memory.openRecords.get? ("t", "a") = none := by decide +kernel
  have due : compactionDue (append id executedFirst (firing "b" key)) = true := by
    have bytes := line_long "b" key
    exact decide_eq_true (long.trans (bytes.trans (Nat.le_add_left _ _)))
  have compacted : recordCall id executedFirst (firing "b" key) = compact (append id executedFirst (firing "b" key)) := by
    unfold recordCall
    simp only [due, if_true]
  have reloaded : (run (firingStep id) noFirings (compactedFiring key ++ [.restart])).journal.memory =
      load id (recordCall id executedFirst (firing "b" key)).text := by
    unfold executedFirst compactedFiring
    simp only [run, firingStep, journalStep, reopen, List.cons_append, List.nil_append]
  rw [reloaded, compacted, Bool.eq_false_iff]
  intro known
  simp only [compact, append] at known
  have keyedNow := apply_keyed id keyed ((firing "b" key).record id)
  have flatNow := @apply_flat id _ flat (firing "b" key)
  have held := (compacted_index id keyedNow flatNow ("t", "a")).1 known
  have other : ¬((firing "b" key).record id).key = some ("t", "a") := by
    rw [record_key]
    exact (by decide : ¬(some ("t", "b") : Option Key) = some ("t", "a"))
  rw [apply_open, if_neg (fun both => other both.1), if_neg (fun both => other both.1), notOpen] at held
  cases held

def everFired (calls : List Call) : List Key := (calls.filter Call.isIntent).map Call.key

def traderless : Call := .intent ⟨"", "a", "k", none, none, none, none, none, ⟨['1'], by decide⟩⟩

/-- After the compaction and a restart the finished signal may be fired again, and an intent without a trader is never known. -/
theorem compaction_forgets_finished :
    ¬Always (firingStep id) (fun firings => Deduped id (everFired firings.calls) firings.calls firings.journal.memory) noFirings
      (compactedFiring longKey ++ [.restart]) ∧
    ¬Always (firingStep id) (fun firings => Deduped id (everFired firings.calls) firings.calls firings.journal.memory) noFirings
      [.call traderless] := by
  constructor
  · intro deduped
    have long : compactThresholdBytes ≤ longKey.toList.length := by
      rw [longKey, String.toList_ofList, List.length_replicate]
    have fired : ("t", "a") ∈ everFired (run (firingStep id) noFirings (compactedFiring longKey ++ [.restart])).calls :=
      List.mem_map.2 ⟨firing "a" "k", List.mem_filter.2 ⟨List.mem_cons_self, rfl⟩, rfl⟩
    have known := (deduped _ List.prefix_rfl).known ("t", "a") fired
    rw [compacted_forgets long] at known
    cases known
  · intro deduped
    have known := (deduped _ List.prefix_rfl).known ("", "a") (by decide)
    exact absurd known (by decide +kernel)

end Runs

end Callisto.Journal

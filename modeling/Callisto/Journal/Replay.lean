import Callisto.Journal.IntentJournal

/-! What a load reads of a journal file: its whole lines, and a torn last line only when nothing but the newline is missing. -/

namespace Callisto.Journal

open Callisto.Library JsonText

theorem lines_single {text : List Char} (whole : '\n' ∉ text) : lines text = [text] := by
  induction text with
  | nil => rfl
  | cons char rest ih =>
    rw [List.mem_cons, not_or] at whole
    rw [lines, if_neg (Ne.symm whole.1), ih whole.2]

theorem lines_cons {text : List Char} (whole : '\n' ∉ text) (rest : List Char) : lines (text ++ '\n' :: rest) = text :: lines rest := by
  induction text with
  | nil => rfl
  | cons char tail ih =>
    rw [List.mem_cons, not_or] at whole
    rw [List.cons_append, lines, if_neg (Ne.symm whole.1), ih whole.2]

def Plain : Json → Prop
  | .null | .number _ | .string _ => True
  | _ => False

def Flat (record : Record) : Prop := ∀ field ∈ record, Plain field.2

theorem hexDigit_newline (value : ℕ) : hexDigit value ≠ '\n' := by
  by_cases small : value < 16
  · have all : ∀ value : Fin 16, hexDigit value ≠ '\n' := by decide
    exact all ⟨value, small⟩
  · unfold hexDigit
    rw [List.getD_eq_getElem?_getD, List.getElem?_eq_none (by simpa using small)]
    decide

theorem hexDigits_newline (unit : ℕ) : '\n' ∉ hexDigits unit := by
  unfold hexDigits
  intro member
  simp only [List.mem_cons, List.not_mem_nil, or_false] at member
  rcases member with same | same | same | same <;> exact hexDigit_newline _ same.symm

theorem escapeChar_newline (char : Char) : '\n' ∉ escapeChar char := by
  unfold escapeChar
  split_ifs
  case pos | pos | pos | pos | pos | pos | pos => decide
  case pos plain =>
    intro member
    rw [← List.mem_singleton.1 member] at plain
    exact absurd plain.1 (by decide)
  case pos =>
    intro member
    simp only [List.mem_cons] at member
    rcases member with same | same | inside
    · cases same
    · cases same
    · exact hexDigits_newline _ inside
  case neg =>
    intro member
    simp only [List.mem_append, List.mem_cons] at member
    rcases member with (same | same | inside) | same | same | inside
    · cases same
    · cases same
    · exact hexDigits_newline _ inside
    · cases same
    · cases same
    · exact hexDigits_newline _ inside

theorem escaped_newline (chars : List Char) : '\n' ∉ chars.flatMap escapeChar := by
  intro member
  obtain ⟨char, -, inside⟩ := List.mem_flatMap.1 member
  exact escapeChar_newline char inside

theorem plain_newline {value : Json} (plain : Plain value) : '\n' ∉ dumps value := by
  cases value with
  | null => decide
  | number number =>
    obtain ⟨-, word, -⟩ := number_classified number
    intro member
    have newline := List.all_eq_true.1 word _ member
    cases newline
  | string text =>
    rw [dumps, List.mem_cons, List.mem_append, List.mem_singleton]
    intro member
    rcases member with same | inside | same
    · cases same
    · exact escaped_newline _ inside
    · cases same
  | bool value => exact plain.elim
  | array items => exact plain.elim
  | object fields => exact plain.elim

theorem field_newline {field : String × Json} (plain : Plain field.2) : '\n' ∉ dumpField field := by
  obtain ⟨name, value⟩ := field
  rw [dumpField, List.mem_cons, List.mem_append, List.mem_cons, List.mem_cons]
  intro member
  rcases member with same | inside | same | same | inside
  · cases same
  · exact escaped_newline _ inside
  · cases same
  · cases same
  · exact plain_newline plain inside

theorem moreFields_newline {fields : List (String × Json)} (flat : ∀ field ∈ fields, Plain field.2) : '\n' ∉ dumpMoreFields fields := by
  induction fields with
  | nil => decide
  | cons field rest ih =>
    rw [dumpMoreFields, List.mem_cons, List.mem_append]
    intro member
    rcases member with same | inside | later
    · cases same
    · exact field_newline (flat field List.mem_cons_self) inside
    · exact ih (fun other member => flat other (List.mem_cons_of_mem _ member)) later

theorem record_newline {record : Record} (flat : Flat record) : '\n' ∉ dumps (.object record) := by
  rw [dumps, List.mem_cons]
  intro member
  rcases member with same | inside
  · cases same
  · cases record with
    | nil => exact absurd inside (by decide)
    | cons field rest =>
      rw [dumpFields, List.mem_append] at inside
      cases inside with
      | inl first => exact field_newline (flat field List.mem_cons_self) first
      | inr later => exact moreFields_newline (fun other member => flat other (List.mem_cons_of_mem _ member)) later

theorem moreFields_last (fields : List (String × Json)) : ∃ front, dumpMoreFields fields = front ++ ['}'] := by
  induction fields with
  | nil => exact ⟨[], rfl⟩
  | cons field rest ih =>
    obtain ⟨front, same⟩ := ih
    exact ⟨',' :: (dumpField field ++ front), by rw [dumpMoreFields, same, List.cons_append, List.append_assoc]⟩

theorem dumps_last (record : Record) : ∃ front, dumps (.object record) = front ++ ['}'] := by
  cases record with
  | nil => exact ⟨['{'], rfl⟩
  | cons field rest =>
    obtain ⟨front, same⟩ := moreFields_last rest
    exact ⟨'{' :: (dumpField field ++ front), by rw [dumps, dumpFields, same, List.cons_append, List.append_assoc]⟩

theorem readLine_dumps (record : Record) : readLine (dumps (.object record)) = some record := by
  unfold readLine
  rw [loads_dumps]

theorem readLine_torn {record : Record} {torn more : List Char} (cut : line record = torn ++ more) (lost : more ≠ []) :
    torn = dumps (.object record) ∨ readLine torn = none := by
  obtain ⟨kept, last, rfl⟩ : ∃ kept last, more = kept ++ [last] := ⟨_, _, (List.dropLast_append_getLast lost).symm⟩
  unfold line at cut
  rw [← List.append_assoc] at cut
  have text := (List.append_inj' cut rfl).1
  by_cases whole : kept = []
  · left
    rw [text, whole, List.append_nil]
  · right
    obtain ⟨front, brace⟩ := dumps_last record
    obtain ⟨rest, other, rfl⟩ : ∃ rest other, kept = rest ++ [other] := ⟨_, _, (List.dropLast_append_getLast whole).symm⟩
    have closing : other = '}' := by
      rw [brace, ← List.append_assoc] at text
      exact (List.cons.inj (List.append_inj' text rfl).2).1.symm
    have visible : (rest ++ [other]).all Reader.isSpace = false := by
      rw [List.all_append, closing]
      exact Bool.and_false _
    unfold readLine
    rw [loads_cut text visible]

theorem lines_records {records : List Record} (flat : ∀ record ∈ records, Flat record) {torn : List Char} (whole : '\n' ∉ torn) :
    lines (records.flatMap line ++ torn) = records.map (fun record => dumps (.object record)) ++ [torn] := by
  induction records with
  | nil => exact lines_single whole
  | cons record rest ih =>
    have own := record_newline (flat record List.mem_cons_self)
    have text : (record :: rest).flatMap line ++ torn = dumps (.object record) ++ '\n' :: (rest.flatMap line ++ torn) := by
      rw [List.flatMap_cons, line, List.append_assoc, List.append_assoc]
      rfl
    rw [text, lines_cons own, ih fun other member => flat other (List.mem_cons_of_mem _ member)]
    rfl

theorem load_records (lower : String → String) {records : List Record} (flat : ∀ record ∈ records, Flat record) {torn : List Char}
    (whole : '\n' ∉ torn) :
    load lower (records.flatMap line ++ torn) = (records ++ (readLine torn).toList).foldl (Memory.apply lower) noMemory := by
  have read : (records.map fun record => dumps (.object record)).filterMap readLine = records := by
    rw [List.filterMap_map]
    have each : (readLine ∘ fun record => dumps (.object record)) = some := by
      funext record
      exact readLine_dumps record
    rw [each, List.filterMap_some]
  unfold load
  rw [lines_records flat whole, List.filterMap_append, read]
  congr 2

theorem load_whole {lower : String → String} {kept : List Record} (flat : ∀ record ∈ kept, Flat record) :
    load lower (kept.flatMap line) = kept.foldl (Memory.apply lower) noMemory := by
  have read := @load_records lower kept flat [] List.not_mem_nil
  rw [List.append_nil] at read
  rw [read, show readLine [] = none from rfl]
  exact congrArg _ (List.append_nil kept)

section Apply

variable (lower : String → String)

theorem apply_open (memory : Memory) (record : Record) (key : Key) : (memory.apply lower record).openRecords.get? key =
    if record.key = some key ∧ record.isIntent = true then some record
    else if record.key = some key ∧ record.isTerminal lower = true then none
    else memory.openRecords.get? key := by
  unfold Memory.apply
  cases own : record.key with
  | none => simp
  | some target =>
    simp only [Option.some.injEq]
    by_cases same : target = key
    · subst same
      split_ifs <;> simp_all [Dict.get?_set, Dict.get?_erase]
    · split_ifs <;> simp_all [Dict.get?_set, Dict.get?_erase]

theorem apply_index (memory : Memory) (record : Record) (key : Key) :
    ((memory.apply lower record).index.get? key).isSome = true ↔
      (memory.index.get? key).isSome = true ∨ record.key = some key ∧ (record.isIntent = true ∨ record.text "k" = some "result") := by
  have terminal : record.isTerminal lower = true → record.text "k" = some "result" := by
    intro ends
    unfold Record.isTerminal at ends
    rw [Bool.and_eq_true, decide_eq_true_eq] at ends
    exact ends.1
  unfold Memory.apply
  cases own : record.key with
  | none => simp
  | some target =>
    simp only [Option.some.injEq]
    by_cases same : target = key
    · subst same
      split_ifs <;> simp_all [Dict.get?_set]
    · split_ifs <;> simp_all [Dict.get?_set]

/-- The open records of a memory stand under their own keys and are intents. -/
def Keyed (memory : Memory) : Prop := memory.openRecords.All fun key record => record.isIntent = true ∧ record.key = some key

theorem apply_keyed {memory : Memory} (keyed : Keyed memory) (record : Record) : Keyed (memory.apply lower record) := by
  unfold Memory.apply
  cases own : record.key with
  | none => exact keyed
  | some target =>
    simp only
    split
    case isTrue intent => exact keyed.set ⟨intent, own⟩
    case isFalse =>
      split
      case isTrue => exact keyed.erase target
      case isFalse =>
        split
        case isTrue => exact keyed
        case isFalse => exact keyed

theorem foldl_keyed (records : List Record) {memory : Memory} (keyed : Keyed memory) : Keyed (records.foldl (Memory.apply lower) memory) := by
  induction records generalizing memory with
  | nil => exact keyed
  | cons record rest ih => exact ih (apply_keyed lower keyed record)

theorem load_keyed (text : List Char) : Keyed (load lower text) := foldl_keyed lower _ (Dict.all_empty _)

theorem replay_open {memory : Memory} (keyed : Keyed memory) (key : Key) :
    (memory.openIntents.foldl (Memory.apply lower) noMemory).openRecords.get? key = memory.openRecords.get? key := by
  have search : ∀ (entries : List (Key × Record)) (start : Memory), (entries.map Prod.fst).Nodup →
      (∀ entry ∈ entries, entry.2.isIntent = true ∧ entry.2.key = some entry.1) →
      ((entries.map Prod.snd).foldl (Memory.apply lower) start).openRecords.get? key =
        (Dict.find key entries).or (start.openRecords.get? key) := by
    intro entries
    induction entries with
    | nil => intro start _ _; rfl
    | cons entry rest ih =>
      obtain ⟨own, record⟩ := entry
      intro start nodup known
      obtain ⟨fresh, nodupRest⟩ := List.nodup_cons.1 nodup
      have intent := known (own, record) List.mem_cons_self
      rw [List.map_cons, List.foldl_cons, ih _ nodupRest fun other member => known other (List.mem_cons_of_mem _ member),
        apply_open, Dict.find]
      by_cases same : own = key
      · have gone : Dict.find key rest = none := Dict.find_eq_none_iff.2 (same ▸ fresh)
        rw [if_pos ⟨intent.2.trans (congrArg some same), intent.1⟩, if_pos same, gone]
        rfl
      · have other : ¬record.key = some key := fun equal => same (Option.some.inj (intent.2.symm.trans equal))
        rw [if_neg (fun both => other both.1), if_neg (fun both => other both.1), if_neg same]
  have found := search memory.openRecords.entries noMemory memory.openRecords.nodup keyed
  rw [show noMemory.openRecords.get? key = none from rfl, Option.or_none] at found
  exact found

theorem foldl_open {records : List Record} {memory : Memory} {key : Key} {record : Record}
    (found : (records.foldl (Memory.apply lower) memory).openRecords.get? key = some record) :
    record ∈ records ∨ memory.openRecords.get? key = some record := by
  induction records generalizing memory with
  | nil => exact Or.inr found
  | cons head rest ih =>
    cases ih found with
    | inl later => exact Or.inl (List.mem_cons_of_mem _ later)
    | inr here =>
      rw [apply_open] at here
      split_ifs at here with intent
      · cases here
        exact Or.inl List.mem_cons_self
      · exact Or.inr here

end Apply

theorem record_flat (lower : String → String) (call : Call) : Flat (call.record lower) := by
  have text : ∀ value : Option String, Plain (ofText value) := by
    intro value
    cases value <;> trivial
  have number : ∀ value : Option NumberText, Plain (ofNumber value) := by
    intro value
    cases value <;> trivial
  intro field member
  cases call with
  | intent call =>
    simp only [Call.record, List.mem_cons, List.not_mem_nil, or_false] at member
    rcases member with rfl | rfl | rfl | rfl | rfl | rfl | rfl | rfl | rfl | rfl
    all_goals first | exact text _ | exact number _ | trivial
  | result call =>
    simp only [Call.record, List.mem_cons, List.not_mem_nil, or_false] at member
    rcases member with rfl | rfl | rfl | rfl | rfl | rfl | rfl
    all_goals first | exact text _ | trivial

def Call.key : Call → Key
  | .intent call => (call.traderId, call.signalId)
  | .result call => (call.traderId, call.signalId)

def Call.isIntent : Call → Bool
  | .intent _ => true
  | .result _ => false

theorem record_isIntent (lower : String → String) (call : Call) : (call.record lower).isIntent = call.isIntent := by
  cases call with
  | intent call => rfl
  | result call => rfl

theorem record_key (lower : String → String) (call : Call) :
    (call.record lower).key = if call.key.1 = "" ∨ call.key.2 = "" then none else some call.key := by
  have trader : (call.record lower).text "tr" = if call.key.1 = "" then none else some call.key.1 := by
    cases call <;> rfl
  have signal : (call.record lower).text "sig" = if call.key.2 = "" then none else some call.key.2 := by
    cases call <;> rfl
  unfold Record.key
  rw [trader, signal]
  by_cases noTrader : call.key.1 = ""
  · rw [if_pos noTrader, if_pos (Or.inl noTrader)]
  · by_cases noSignal : call.key.2 = ""
    · rw [if_neg noTrader, if_pos noSignal, if_pos (Or.inr noSignal)]
    · rw [if_neg noTrader, if_neg noSignal, if_neg (fun either => either.elim noTrader noSignal)]

end Callisto.Journal

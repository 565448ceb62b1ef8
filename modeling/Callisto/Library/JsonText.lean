import Mathlib.Data.List.Basic

/-! JSON texts: a reader of values, a writer that escapes everything but plain ASCII, and that neither a written object
cut short nor one with more text behind it is read. -/

namespace Callisto.Library

abbrev Reader (α : Type) := StateT (List Char) Option α

namespace Reader

variable {α β : Type}

def fail : Reader α := fun _ => none

/-- What one reader reads from a text, the other reads from every longer one. -/
def Extends (short long : Reader α) : Prop :=
  ∀ text value rest more, short text = some (value, rest) → long (text ++ more) = some (value, rest ++ more)

def ExtendsBefore (short long : Reader α) : Prop :=
  ∀ text value rest more, short text = some (value, rest) → rest ≠ [] → long (text ++ more) = some (value, rest ++ more)

theorem Extends.before {short long : Reader α} (extends_ : Extends short long) : ExtendsBefore short long :=
  fun text value rest more read _ => extends_ text value rest more read

theorem bind_some {first : Reader α} {next : α → Reader β} {text : List Char} {result : β × List Char} :
    (first >>= next) text = some result ↔ ∃ value rest, first text = some (value, rest) ∧ next value rest = some result := by
  show (first text >>= fun read => next read.1 read.2) = some result ↔ _
  cases first text with
  | none => simp
  | some read =>
    obtain ⟨value, rest⟩ := read
    simp

theorem Extends.bind {short long : Reader α} {next later : α → Reader β} (first : Extends short long)
    (rests : ∀ value, Extends (next value) (later value)) : Extends (short >>= next) (long >>= later) := by
  intro text value rest more read
  obtain ⟨middle, left, readFirst, readNext⟩ := bind_some.1 read
  exact bind_some.2 ⟨middle, left ++ more, first text middle left more readFirst, rests middle left value rest more readNext⟩

theorem ExtendsBefore.bind {short long : Reader α} {next later : α → Reader β} (first : ExtendsBefore short long)
    (rests : ∀ value, Extends (next value) (later value)) (needs : ∀ value, next value [] = none) :
    Extends (short >>= next) (long >>= later) := by
  intro text value rest more read
  obtain ⟨middle, left, readFirst, readNext⟩ := bind_some.1 read
  have remains : left ≠ [] := by
    intro empty
    rw [empty, needs] at readNext
    cases readNext
  exact bind_some.2 ⟨middle, left ++ more, first text middle left more readFirst remains, rests middle left value rest more readNext⟩

theorem Extends.pure (value : α) : Extends (Pure.pure value) (Pure.pure value) := by
  intro text other rest more read
  cases read
  rfl

theorem Extends.fail (long : Reader α) : Extends Reader.fail long := fun _ _ _ _ read => nomatch read

theorem Extends.ite {short long other otherLong : Reader α} {chosen : Prop} [Decidable chosen] (yes : Extends short long)
    (no : Extends other otherLong) : Extends (if chosen then short else other) (if chosen then long else otherLong) := by
  split
  · exact yes
  · exact no

def char : Reader Char
  | [] => none
  | head :: rest => some (head, rest)

theorem char_extends : Extends char char := by
  intro text value rest more read
  cases text with
  | nil => cases read
  | cons head tail =>
    cases read
    rfl

def isSpace (char : Char) : Bool := char = ' ' || char = '\t' || char = '\n' || char = '\r'

def solid : Reader Char := fun text => char (text.dropWhile isSpace)

theorem solid_extends : Extends solid solid := by
  intro text value rest more read
  show char ((text ++ more).dropWhile isSpace) = _
  rw [List.dropWhile_append]
  split
  case isTrue none_ =>
    have blank : text.dropWhile isSpace = [] := List.isEmpty_iff.1 none_
    have nothing : char (text.dropWhile isSpace) = some (value, rest) := read
    rw [blank] at nothing
    cases nothing
  case isFalse => exact char_extends _ _ _ _ read

theorem solid_of_solid {head : Char} (visible : isSpace head = false) (rest : List Char) : solid (head :: rest) = some (head, rest) := by
  show char ((head :: rest).dropWhile isSpace) = _
  rw [List.dropWhile_cons_of_neg (by rw [visible]; exact Bool.false_ne_true)]
  rfl

end Reader

namespace JsonText

open Reader

def hexValue (digit : Char) : Option ℕ :=
  if '0' ≤ digit ∧ digit ≤ '9' then some (digit.toNat - '0'.toNat)
  else if 'a' ≤ digit ∧ digit ≤ 'f' then some (digit.toNat - 'a'.toNat + 10)
  else if 'A' ≤ digit ∧ digit ≤ 'F' then some (digit.toNat - 'A'.toNat + 10)
  else none

def hexDigit (value : ℕ) : Char := ['0', '1', '2', '3', '4', '5', '6', '7', '8', '9', 'a', 'b', 'c', 'd', 'e', 'f'].getD value '0'

theorem hexValue_digit {value : ℕ} (small : value < 16) : hexValue (hexDigit value) = some value := by
  have all : ∀ value : Fin 16, hexValue (hexDigit value) = some value.1 := by decide
  exact all ⟨value, small⟩

def hexNext (value : ℕ) : Reader ℕ := do
  match hexValue (← char) with
  | some digit => pure (value * 16 + digit)
  | none => fail

def readUnit : Reader ℕ := do
  hexNext (← hexNext (← hexNext (← hexNext 0)))

def expect (wanted : Char) : Reader Unit := do
  if (← char) = wanted then pure () else fail

def isHigh (unit : ℕ) : Bool := 0xD800 ≤ unit && unit < 0xDC00

def isLow (unit : ℕ) : Bool := 0xDC00 ≤ unit && unit < 0xE000

def readUnicode : Reader Char := do
  let unit ← readUnit
  if isHigh unit then
    expect '\\'
    expect 'u'
    let low ← readUnit
    if isLow low then pure (Char.ofNat (0x10000 + (unit - 0xD800) * 0x400 + (low - 0xDC00))) else fail
  else if isLow unit then fail
  else pure (Char.ofNat unit)

def unescape (letter : Char) : Option Char :=
  if letter = '"' then some '"'
  else if letter = '\\' then some '\\'
  else if letter = '/' then some '/'
  else if letter = 'b' then some '\x08'
  else if letter = 'f' then some '\x0c'
  else if letter = 'n' then some '\n'
  else if letter = 'r' then some '\r'
  else if letter = 't' then some '\t'
  else none

def readEscape : Reader Char := do
  let letter ← char
  if letter = 'u' then readUnicode
  else match unescape letter with
    | some plain => pure plain
    | none => fail

def readChar : Reader (Option Char) := do
  let head ← char
  if head = '"' then pure none
  else if head = '\\' then do
    let plain ← readEscape
    pure (some plain)
  else if head.toNat < 32 then fail
  else pure (some head)

def readString : ℕ → Reader (List Char)
  | 0 => fail
  | fuel + 1 => do
    match ← readChar with
    | none => pure []
    | some head =>
      let rest ← readString fuel
      pure (head :: rest)

theorem hexNext_extends (value : ℕ) : Extends (hexNext value) (hexNext value) := by
  apply char_extends.bind
  intro digit
  split
  · exact Extends.pure _
  · exact Extends.fail _

theorem readUnit_extends : Extends readUnit readUnit :=
  (hexNext_extends 0).bind fun first => (hexNext_extends first).bind fun second => (hexNext_extends second).bind hexNext_extends

theorem expect_extends (wanted : Char) : Extends (expect wanted) (expect wanted) :=
  char_extends.bind fun _ => Extends.ite (Extends.pure _) (Extends.fail _)

theorem readUnicode_extends : Extends readUnicode readUnicode := by
  apply readUnit_extends.bind
  intro unit
  apply Extends.ite
  · apply (expect_extends _).bind
    intro _
    apply (expect_extends _).bind
    intro _
    apply readUnit_extends.bind
    intro low
    exact Extends.ite (Extends.pure _) (Extends.fail _)
  · exact Extends.ite (Extends.fail _) (Extends.pure _)

theorem readEscape_extends : Extends readEscape readEscape := by
  apply char_extends.bind
  intro letter
  apply Extends.ite readUnicode_extends
  split
  · exact Extends.pure _
  · exact Extends.fail _

theorem readChar_extends : Extends readChar readChar := by
  apply char_extends.bind
  intro head
  apply Extends.ite (Extends.pure _)
  apply Extends.ite
  · exact readEscape_extends.bind fun _ => Extends.pure _
  · exact Extends.ite (Extends.fail _) (Extends.pure _)

theorem readString_extends {fuel more : ℕ} (enough : fuel ≤ more) : Extends (readString fuel) (readString more) := by
  induction fuel generalizing more with
  | zero => exact Extends.fail _
  | succ fuel ih =>
    obtain ⟨more, rfl⟩ : ∃ left, more = left + 1 := ⟨more - 1, by omega⟩
    apply readChar_extends.bind
    intro head
    cases head with
    | none => exact Extends.pure _
    | some head => exact (ih (by omega)).bind fun _ => Extends.pure _

def hexDigits (unit : ℕ) : List Char :=
  [hexDigit (unit / 4096 % 16), hexDigit (unit / 256 % 16), hexDigit (unit / 16 % 16), hexDigit (unit % 16)]

theorem hexNext_digit (value : ℕ) {digit : ℕ} (small : digit < 16) (rest : List Char) :
    hexNext value (hexDigit digit :: rest) = some (value * 16 + digit, rest) := by
  show (match hexValue (hexDigit digit) with
    | some digit => (pure (value * 16 + digit) : Reader ℕ)
    | none => fail) rest = _
  rw [hexValue_digit small]
  rfl

theorem readUnit_digits {unit : ℕ} (small : unit < 65536) (rest : List Char) : readUnit (hexDigits unit ++ rest) = some (unit, rest) := by
  apply bind_some.2
  refine ⟨_, _, hexNext_digit 0 (Nat.mod_lt _ (by decide)) _, ?_⟩
  apply bind_some.2
  refine ⟨_, _, hexNext_digit _ (Nat.mod_lt _ (by decide)) _, ?_⟩
  apply bind_some.2
  refine ⟨_, _, hexNext_digit _ (Nat.mod_lt _ (by decide)) _, ?_⟩
  have whole : (((0 * 16 + unit / 4096 % 16) * 16 + unit / 256 % 16) * 16 + unit / 16 % 16) * 16 + unit % 16 = unit := by omega
  have last := hexNext_digit (((0 * 16 + unit / 4096 % 16) * 16 + unit / 256 % 16) * 16 + unit / 16 % 16)
    (Nat.mod_lt unit (by decide) : unit % 16 < 16) rest
  rw [whole] at last
  exact last

/-- The writer's escapes; all else outside plain ASCII goes by its UTF-16 units. -/
def escapeChar (char : Char) : List Char :=
  if char = '"' then ['\\', '"']
  else if char = '\\' then ['\\', '\\']
  else if char = '\x08' then ['\\', 'b']
  else if char = '\x0c' then ['\\', 'f']
  else if char = '\n' then ['\\', 'n']
  else if char = '\r' then ['\\', 'r']
  else if char = '\t' then ['\\', 't']
  else if 32 ≤ char.toNat ∧ char.toNat < 127 then [char]
  else if char.toNat < 0x10000 then '\\' :: 'u' :: hexDigits char.toNat
  else '\\' :: 'u' :: hexDigits (0xD800 + (char.toNat - 0x10000) / 0x400) ++
    '\\' :: 'u' :: hexDigits (0xDC00 + (char.toNat - 0x10000) % 0x400)

theorem readChar_backslash {rest left : List Char} {plain : Char} (read : readEscape rest = some (plain, left)) :
    readChar ('\\' :: rest) = some (some plain, left) :=
  bind_some.2 ⟨'\\', rest, rfl, bind_some.2 ⟨plain, left, read, rfl⟩⟩

theorem readEscape_unicode {rest left : List Char} {plain : Char} (read : readUnicode rest = some (plain, left)) :
    readEscape ('u' :: rest) = some (plain, left) :=
  bind_some.2 ⟨'u', rest, rfl, read⟩

theorem char_range (char : Char) : char.toNat < 0xD800 ∨ 0xDFFF < char.toNat ∧ char.toNat < 0x110000 := char.valid

theorem readUnicode_basic {char : Char} (basic : char.toNat < 0x10000) (rest : List Char) :
    readUnicode (hexDigits char.toNat ++ rest) = some (char, rest) := by
  have range := char_range char
  have noHigh : isHigh char.toNat = false := by
    unfold isHigh
    rw [Bool.and_eq_false_iff, decide_eq_false_iff_not, decide_eq_false_iff_not]
    omega
  have noLow : isLow char.toNat = false := by
    unfold isLow
    rw [Bool.and_eq_false_iff, decide_eq_false_iff_not, decide_eq_false_iff_not]
    omega
  apply bind_some.2
  refine ⟨_, _, readUnit_digits basic rest, ?_⟩
  rw [noHigh, noLow]
  show some (Char.ofNat char.toNat, rest) = _
  rw [Char.ofNat_toNat]

theorem readUnicode_pair {char : Char} (wide : 0x10000 ≤ char.toNat) (rest : List Char) :
    readUnicode (hexDigits (0xD800 + (char.toNat - 0x10000) / 0x400) ++
      '\\' :: 'u' :: (hexDigits (0xDC00 + (char.toNat - 0x10000) % 0x400) ++ rest)) = some (char, rest) := by
  have range := char_range char
  have high : isHigh (0xD800 + (char.toNat - 0x10000) / 0x400) = true := by
    unfold isHigh
    rw [Bool.and_eq_true, decide_eq_true_eq, decide_eq_true_eq]
    omega
  have low : isLow (0xDC00 + (char.toNat - 0x10000) % 0x400) = true := by
    unfold isLow
    rw [Bool.and_eq_true, decide_eq_true_eq, decide_eq_true_eq]
    omega
  have joined : 0x10000 + (0xD800 + (char.toNat - 0x10000) / 0x400 - 0xD800) * 0x400 +
      (0xDC00 + (char.toNat - 0x10000) % 0x400 - 0xDC00) = char.toNat := by omega
  apply bind_some.2
  refine ⟨_, _, readUnit_digits (by omega) _, ?_⟩
  rw [high]
  apply bind_some.2
  refine ⟨(), _, rfl, ?_⟩
  apply bind_some.2
  refine ⟨(), _, rfl, ?_⟩
  apply bind_some.2
  refine ⟨_, _, readUnit_digits (by omega) rest, ?_⟩
  rw [low]
  show some (Char.ofNat _, rest) = _
  rw [joined, Char.ofNat_toNat]

theorem readChar_escape (char : Char) (rest : List Char) : readChar (escapeChar char ++ rest) = some (some char, rest) := by
  unfold escapeChar
  by_cases quote : char = '"'
  · rw [if_pos quote, quote]
    rfl
  rw [if_neg quote]
  by_cases slash : char = '\\'
  · rw [if_pos slash, slash]
    rfl
  rw [if_neg slash]
  by_cases back : char = '\x08'
  · rw [if_pos back, back]
    rfl
  rw [if_neg back]
  by_cases feed : char = '\x0c'
  · rw [if_pos feed, feed]
    rfl
  rw [if_neg feed]
  by_cases line : char = '\n'
  · rw [if_pos line, line]
    rfl
  rw [if_neg line]
  by_cases carriage : char = '\r'
  · rw [if_pos carriage, carriage]
    rfl
  rw [if_neg carriage]
  by_cases tab : char = '\t'
  · rw [if_pos tab, tab]
    rfl
  rw [if_neg tab]
  by_cases plain : 32 ≤ char.toNat ∧ char.toNat < 127
  · rw [if_pos plain]
    apply bind_some.2
    refine ⟨char, rest, rfl, ?_⟩
    rw [if_neg quote, if_neg slash, if_neg (by omega)]
    rfl
  rw [if_neg plain]
  by_cases basic : char.toNat < 0x10000
  · rw [if_pos basic]
    exact readChar_backslash (readEscape_unicode (readUnicode_basic basic rest))
  · rw [if_neg basic]
    have wide : 0x10000 ≤ char.toNat := by omega
    have read := readChar_backslash (readEscape_unicode (readUnicode_pair wide rest))
    rw [List.append_assoc]
    exact read

theorem readString_escape (chars rest : List Char) {fuel : ℕ} (enough : chars.length < fuel) :
    readString fuel (chars.flatMap escapeChar ++ '"' :: rest) = some (chars, rest) := by
  induction chars generalizing fuel with
  | nil =>
    obtain ⟨fuel, rfl⟩ : ∃ left, fuel = left + 1 := ⟨fuel - 1, by omega⟩
    rfl
  | cons head tail ih =>
    rw [List.length_cons] at enough
    obtain ⟨fuel, rfl⟩ : ∃ left, fuel = left + 1 := ⟨fuel - 1, by omega⟩
    rw [List.flatMap_cons, List.append_assoc]
    apply bind_some.2
    refine ⟨some head, _, readChar_escape head _, ?_⟩
    exact bind_some.2 ⟨tail, rest, ih (by omega), rfl⟩

def wordChar (char : Char) : Bool := char.isAlphanum || char = '+' || char = '-' || char = '.'

def allDigits (chars : List Char) : Bool := !chars.isEmpty && chars.all Char.isDigit

def isExponent : List Char → Bool
  | [] => true
  | mark :: rest => (mark = 'e' || mark = 'E') && match rest with
    | sign :: digits => if sign = '+' ∨ sign = '-' then allDigits digits else allDigits rest
    | [] => false

def isFraction : List Char → Bool
  | [] => true
  | point :: rest =>
    if point = '.' then allDigits (rest.takeWhile Char.isDigit) && isExponent (rest.dropWhile Char.isDigit)
    else isExponent (point :: rest)

/-- The number texts of JSON, with the three words that Python reads and writes for floats. -/
def isNumber (chars : List Char) : Bool :=
  chars.all wordChar && (chars = ['N', 'a', 'N'] || chars = ['I', 'n', 'f', 'i', 'n', 'i', 't', 'y'] ||
    chars = ['-', 'I', 'n', 'f', 'i', 'n', 'i', 't', 'y'] ||
    let body := if chars.head? = some '-' then chars.tail else chars
    let whole := body.takeWhile Char.isDigit
    allDigits whole && (whole = ['0'] || whole.head? ≠ some '0') && isFraction (body.dropWhile Char.isDigit))

structure NumberText where
  chars : List Char
  valid : isNumber chars = true

end JsonText

inductive Json where
  | null
  | bool (value : Bool)
  | number (value : JsonText.NumberText)
  | string (value : String)
  | array (items : List Json)
  | object (fields : List (String × Json))

namespace JsonText

open Reader

def classify (word : List Char) : Option Json :=
  if word = ['n', 'u', 'l', 'l'] then some .null
  else if word = ['t', 'r', 'u', 'e'] then some (.bool true)
  else if word = ['f', 'a', 'l', 's', 'e'] then some (.bool false)
  else if valid : isNumber word = true then some (.number ⟨word, valid⟩)
  else none

def readWord (head : Char) : Reader Json := fun text =>
  (classify (head :: text.takeWhile wordChar)).map fun value => (value, text.dropWhile wordChar)

mutual

def readValue : ℕ → Char → Reader Json
  | 0, _ => fail
  | fuel + 1, head =>
    if head = '"' then do
      let chars ← readString fuel
      pure (.string (String.ofList chars))
    else if head = '[' then do
      let first ← solid
      if first = ']' then pure (.array [])
      else do
        let items ← readItems fuel first
        pure (.array items)
    else if head = '{' then do
      let first ← solid
      if first = '}' then pure (.object [])
      else if first = '"' then do
        let fields ← readFields fuel
        pure (.object fields)
      else fail
    else readWord head

def readItems : ℕ → Char → Reader (List Json)
  | 0, _ => fail
  | fuel + 1, head => do
    let item ← readValue fuel head
    let next ← solid
    if next = ']' then pure [item]
    else if next = ',' then do
      let first ← solid
      let rest ← readItems fuel first
      pure (item :: rest)
    else fail

def readFields : ℕ → Reader (List (String × Json))
  | 0 => fail
  | fuel + 1 => do
    let name ← readString fuel
    let colon ← solid
    if colon = ':' then do
      let head ← solid
      let value ← readValue fuel head
      let next ← solid
      if next = '}' then pure [(String.ofList name, value)]
      else if next = ',' then do
        let quote ← solid
        if quote = '"' then do
          let rest ← readFields fuel
          pure ((String.ofList name, value) :: rest)
        else fail
      else fail
    else fail

end

/-- `json.loads`; white space is all that may follow the value. -/
def loads (text : List Char) : Option Json :=
  match (solid >>= readValue (text.length + 1)) text with
  | some (value, rest) => if rest.all isSpace then some value else none
  | none => none

mutual

/-- `json.dumps` without spaces. -/
def dumps : Json → List Char
  | .null => ['n', 'u', 'l', 'l']
  | .bool value => if value then ['t', 'r', 'u', 'e'] else ['f', 'a', 'l', 's', 'e']
  | .number value => value.chars
  | .string value => '"' :: (value.toList.flatMap escapeChar ++ ['"'])
  | .array items => '[' :: dumpItems items
  | .object fields => '{' :: dumpFields fields

def dumpItems : List Json → List Char
  | [] => [']']
  | item :: rest => dumps item ++ dumpMoreItems rest

def dumpMoreItems : List Json → List Char
  | [] => [']']
  | item :: rest => ',' :: (dumps item ++ dumpMoreItems rest)

def dumpField : String × Json → List Char
  | (name, value) => '"' :: (name.toList.flatMap escapeChar ++ '"' :: ':' :: dumps value)

def dumpFields : List (String × Json) → List Char
  | [] => ['}']
  | field :: rest => dumpField field ++ dumpMoreFields rest

def dumpMoreFields : List (String × Json) → List Char
  | [] => ['}']
  | field :: rest => ',' :: (dumpField field ++ dumpMoreFields rest)

end

theorem readWord_extends (head : Char) : ExtendsBefore (readWord head) (readWord head) := by
  intro text value rest more read remains
  obtain ⟨word, classified, same⟩ := Option.map_eq_some_iff.1 read
  cases same
  have left : ¬(text.dropWhile wordChar).isEmpty = true := fun empty => remains (List.isEmpty_iff.1 empty)
  have longer : (text ++ more).takeWhile wordChar = text.takeWhile wordChar := by
    rw [List.takeWhile_append]
    split
    case isTrue all =>
      have whole := List.takeWhile_append_dropWhile (p := wordChar) (l := text)
      have lengths := congrArg List.length whole
      rw [List.length_append, all] at lengths
      have none_ : (text.dropWhile wordChar).length = 0 := by omega
      exact absurd (List.length_eq_zero_iff.1 none_) remains
    case isFalse => rfl
  show (classify (head :: (text ++ more).takeWhile wordChar)).map _ = _
  rw [longer, List.dropWhile_append, if_neg left, classified]
  rfl

theorem read_extends {fuel more : ℕ} (enough : fuel ≤ more) :
    (∀ head, ExtendsBefore (readValue fuel head) (readValue more head) ∧
      (head = '{' → Extends (readValue fuel head) (readValue more head))) ∧
    (∀ head, Extends (readItems fuel head) (readItems more head)) ∧ Extends (readFields fuel) (readFields more) := by
  induction fuel generalizing more with
  | zero => exact ⟨fun _ => ⟨(Extends.fail _).before, fun _ => Extends.fail _⟩, fun _ => Extends.fail _, Extends.fail _⟩
  | succ fuel ih =>
    obtain ⟨more, rfl⟩ : ∃ left, more = left + 1 := ⟨more - 1, by omega⟩
    obtain ⟨values, items, fields⟩ := ih (show fuel ≤ more by omega)
    have objects : Extends
        (do
          let first ← solid
          if first = '}' then pure (Json.object [])
          else if first = '"' then do
            let fields ← readFields fuel
            pure (.object fields)
          else fail)
        (do
          let first ← solid
          if first = '}' then pure (Json.object [])
          else if first = '"' then do
            let fields ← readFields more
            pure (.object fields)
          else fail) := by
      apply solid_extends.bind
      intro first
      apply Extends.ite (Extends.pure _)
      exact Extends.ite (fields.bind fun _ => Extends.pure _) (Extends.fail _)
    refine ⟨?_, ?_, ?_⟩
    · intro head
      constructor
      · unfold readValue
        by_cases quote : head = '"'
        · rw [if_pos quote, if_pos quote]
          exact ((readString_extends (show fuel ≤ more by omega)).bind fun _ => Extends.pure _).before
        rw [if_neg quote, if_neg quote]
        by_cases bracket : head = '['
        · rw [if_pos bracket, if_pos bracket]
          apply Extends.before
          apply solid_extends.bind
          intro first
          exact Extends.ite (Extends.pure _) ((items first).bind fun _ => Extends.pure _)
        rw [if_neg bracket, if_neg bracket]
        by_cases brace : head = '{'
        · rw [if_pos brace, if_pos brace]
          exact objects.before
        rw [if_neg brace, if_neg brace]
        exact readWord_extends head
      · intro brace
        subst brace
        exact objects
    · intro head
      unfold readItems
      apply (values head).1.bind _ fun _ => rfl
      intro item
      apply solid_extends.bind
      intro next
      apply Extends.ite (Extends.pure _)
      apply Extends.ite _ (Extends.fail _)
      apply solid_extends.bind
      intro first
      exact (items first).bind fun _ => Extends.pure _
    · unfold readFields
      apply (readString_extends (show fuel ≤ more by omega)).bind
      intro name
      apply solid_extends.bind
      intro colon
      apply Extends.ite _ (Extends.fail _)
      apply solid_extends.bind
      intro head
      apply (values head).1.bind _ fun _ => rfl
      intro value
      apply solid_extends.bind
      intro next
      apply Extends.ite (Extends.pure _)
      apply Extends.ite _ (Extends.fail _)
      apply solid_extends.bind
      intro quote
      exact Extends.ite (fields.bind fun _ => Extends.pure _) (Extends.fail _)

/-- A text that is read as a value and more text that is not blank: nothing is read of both together when the value is an object. -/
theorem loads_append {text more : List Char} {value : Json} (read : loads ('{' :: text) = some value) (solid_ : more.all isSpace = false) :
    loads ('{' :: text ++ more) = none := by
  unfold loads at read ⊢
  cases first : (solid >>= readValue (('{' :: text).length + 1)) ('{' :: text) with
  | none =>
    rw [first] at read
    cases read
  | some result =>
    obtain ⟨read_, rest⟩ := result
    obtain ⟨head, left, start, readRest⟩ := bind_some.1 first
    rw [solid_of_solid rfl] at start
    cases start
    have longer := ((read_extends (show ('{' :: text).length + 1 ≤ ('{' :: text ++ more).length + 1 by
      rw [List.length_append]; omega)).1 '{').2 rfl text read_ rest more readRest
    have whole : (solid >>= readValue (('{' :: text ++ more).length + 1)) ('{' :: text ++ more) = some (read_, rest ++ more) :=
      bind_some.2 ⟨'{', text ++ more, solid_of_solid rfl _, longer⟩
    rw [whole]
    show (if (rest ++ more).all isSpace then some read_ else none) = none
    rw [List.all_append, solid_, Bool.and_false]
    rfl

def Ends (rest : List Char) : Prop := ∀ char ∈ rest.head?, wordChar char = false

theorem ends_nil : Ends [] := fun _ member => nomatch member

theorem ends_cons {head : Char} (other : wordChar head = false) (rest : List Char) : Ends (head :: rest) := by
  intro char member
  cases member
  exact other

theorem wordChar_plain {head : Char} (word : wordChar head = true) :
    isSpace head = false ∧ head ≠ ']' ∧ head ≠ '"' ∧ head ≠ '[' ∧ head ≠ '{' := by
  have differs : ∀ other : Char, wordChar other = false → head ≠ other := by
    intro other not same
    rw [same, not] at word
    cases word
  refine ⟨?_, differs _ rfl, differs _ rfl, differs _ rfl, differs _ rfl⟩
  unfold isSpace
  rw [decide_eq_false (differs ' ' rfl), decide_eq_false (differs '\t' rfl), decide_eq_false (differs '\n' rfl),
    decide_eq_false (differs '\r' rfl)]
  rfl

theorem readWord_spec {head : Char} {tail rest : List Char} {value : Json} (word : tail.all wordChar = true) (ends : Ends rest)
    (classified : classify (head :: tail) = some value) : readWord head (tail ++ rest) = some (value, rest) := by
  have all : ∀ char ∈ tail, wordChar char = true := List.all_eq_true.1 word
  have stops : rest.takeWhile wordChar = [] ∧ rest.dropWhile wordChar = rest := by
    cases rest with
    | nil => exact ⟨rfl, rfl⟩
    | cons char more =>
      have other : ¬wordChar char = true := by
        rw [ends char rfl]
        exact Bool.false_ne_true
      exact ⟨List.takeWhile_cons_of_neg other, List.dropWhile_cons_of_neg other⟩
  show (classify (head :: (tail ++ rest).takeWhile wordChar)).map _ = _
  rw [List.takeWhile_append_of_pos all, List.dropWhile_append_of_pos all, stops.1, stops.2, List.append_nil, classified]
  rfl

theorem readValue_word {head : Char} (word : wordChar head = true) (fuel : ℕ) : readValue (fuel + 1) head = readWord head := by
  obtain ⟨-, -, quote, bracket, brace⟩ := wordChar_plain word
  unfold readValue
  rw [if_neg quote, if_neg bracket, if_neg brace]

theorem word_spec {head : Char} {tail rest : List Char} {value : Json} (word : (head :: tail).all wordChar = true) (ends : Ends rest)
    (classified : classify (head :: tail) = some value) (fuel : ℕ) :
    isSpace head = false ∧ head ≠ ']' ∧ readValue (fuel + 1) head (tail ++ rest) = some (value, rest) := by
  rw [List.all_cons, Bool.and_eq_true] at word
  obtain ⟨blank, bracket, -⟩ := wordChar_plain word.1
  rw [readValue_word word.1]
  exact ⟨blank, bracket, readWord_spec word.2 ends classified⟩

theorem number_classified (number : NumberText) : classify number.chars = some (.number number) ∧
    number.chars.all wordChar = true ∧ number.chars ≠ [] := by
  obtain ⟨chars, valid⟩ := number
  have differs : ∀ other : List Char, isNumber other = false → chars ≠ other := by
    intro other not same
    rw [same, not] at valid
    cases valid
  refine ⟨?_, ?_, differs [] rfl⟩
  · unfold classify
    rw [if_neg (differs _ (by decide)), if_neg (differs _ (by decide)), if_neg (differs _ (by decide)), dif_pos valid]
  · unfold isNumber at valid
    rw [Bool.and_eq_true] at valid
    exact valid.1

theorem escape_length (chars : List Char) : chars.length ≤ (chars.flatMap escapeChar).length := by
  induction chars with
  | nil => exact Nat.le_refl _
  | cons head tail ih =>
    have one : 1 ≤ (escapeChar head).length := by
      unfold escapeChar
      split_ifs <;> simp
    rw [List.flatMap_cons, List.length_append, List.length_cons]
    omega

theorem more_items_ends (items : List Json) (rest : List Char) : Ends (dumpMoreItems items ++ rest) := by
  cases items with
  | nil => exact ends_cons rfl _
  | cons item items => exact ends_cons rfl _

theorem more_fields_ends (fields : List (String × Json)) (rest : List Char) : Ends (dumpMoreFields fields ++ rest) := by
  cases fields with
  | nil => exact ends_cons rfl _
  | cons field fields => exact ends_cons rfl _

theorem more_items_length (items : List Json) : 1 ≤ (dumpMoreItems items).length := by
  cases items with
  | nil => exact Nat.le_refl _
  | cons item items =>
    rw [dumpMoreItems, List.length_cons]
    omega

theorem more_fields_length (fields : List (String × Json)) : 1 ≤ (dumpMoreFields fields).length := by
  cases fields with
  | nil => exact Nat.le_refl _
  | cons field fields =>
    rw [dumpMoreFields, List.length_cons]
    omega

theorem dumps_ne_nil (value : Json) : dumps value ≠ [] := by
  cases value with
  | null => exact List.cons_ne_nil _ _
  | bool value =>
    cases value
    · exact List.cons_ne_nil _ _
    · exact List.cons_ne_nil _ _
  | number value => exact (number_classified value).2.2
  | string value => exact List.cons_ne_nil _ _
  | array items => exact List.cons_ne_nil _ _
  | object fields => exact List.cons_ne_nil _ _

theorem read_dumps (fuel : ℕ) :
    (∀ value rest, (dumps value).length ≤ fuel → Ends rest → ∃ head tail, dumps value = head :: tail ∧ isSpace head = false ∧
      head ≠ ']' ∧ readValue fuel head (tail ++ rest) = some (value, rest)) ∧
    (∀ item items rest, (dumpItems (item :: items)).length ≤ fuel → ∃ head tail, dumpItems (item :: items) = head :: tail ∧
      isSpace head = false ∧ head ≠ ']' ∧ readItems fuel head (tail ++ rest) = some (item :: items, rest)) ∧
    ∀ field fields rest, (dumpFields (field :: fields)).length ≤ fuel → ∃ tail, dumpFields (field :: fields) = '"' :: tail ∧
      readFields fuel (tail ++ rest) = some (field :: fields, rest) := by
  induction fuel with
  | zero =>
    refine ⟨?_, ?_, ?_⟩
    · intro value rest short
      exact absurd (List.length_eq_zero_iff.1 (Nat.le_zero.1 short)) (dumps_ne_nil value)
    · intro item items rest short
      rw [dumpItems, List.length_append] at short
      have := more_items_length items
      omega
    · intro field fields rest short
      rw [dumpFields, List.length_append] at short
      have := more_fields_length fields
      omega
  | succ fuel ih =>
    obtain ⟨values, itemLists, fieldLists⟩ := ih
    refine ⟨?_, ?_, ?_⟩
    · intro value rest short ends
      cases value with
      | null => exact ⟨'n', ['u', 'l', 'l'], rfl, word_spec rfl ends rfl fuel⟩
      | bool value =>
        cases value
        · exact ⟨'f', ['a', 'l', 's', 'e'], rfl, word_spec rfl ends rfl fuel⟩
        · exact ⟨'t', ['r', 'u', 'e'], rfl, word_spec rfl ends rfl fuel⟩
      | number value =>
        obtain ⟨classified, word, nonempty⟩ := number_classified value
        obtain ⟨head, tail, same⟩ := List.exists_cons_of_ne_nil nonempty
        rw [same] at classified word
        exact ⟨head, tail, same, word_spec word ends classified fuel⟩
      | string value =>
        refine ⟨'"', _, rfl, rfl, by decide, ?_⟩
        rw [dumps, List.length_cons, List.length_append, List.length_singleton] at short
        have escaped := escape_length value.toList
        rw [List.append_assoc]
        have read := readString_escape value.toList rest (show value.toList.length < fuel by omega)
        unfold readValue
        rw [if_pos rfl]
        refine bind_some.2 ⟨value.toList, rest, read, ?_⟩
        rw [String.ofList_toList]
        rfl
      | array items =>
        refine ⟨'[', _, rfl, rfl, by decide, ?_⟩
        cases items with
        | nil => rfl
        | cons item items =>
          rw [dumps, List.length_cons] at short
          obtain ⟨head, tail, same, blank, bracket, read⟩ := itemLists item items rest (by omega)
          unfold readValue
          rw [if_neg (by decide), if_pos rfl, same]
          refine bind_some.2 ⟨head, tail ++ rest, solid_of_solid blank _, ?_⟩
          rw [if_neg bracket]
          exact bind_some.2 ⟨item :: items, rest, read, rfl⟩
      | object fields =>
        refine ⟨'{', _, rfl, rfl, by decide, ?_⟩
        cases fields with
        | nil => rfl
        | cons field fields =>
          rw [dumps, List.length_cons] at short
          obtain ⟨tail, same, read⟩ := fieldLists field fields rest (by omega)
          unfold readValue
          rw [if_neg (by decide), if_neg (by decide), if_pos rfl, same]
          refine bind_some.2 ⟨'"', tail ++ rest, solid_of_solid rfl _, ?_⟩
          rw [if_neg (by decide), if_pos rfl]
          exact bind_some.2 ⟨field :: fields, rest, read, rfl⟩
    · intro item items rest short
      rw [dumpItems, List.length_append] at short
      have more := more_items_length items
      obtain ⟨head, tail, same, blank, bracket, read⟩ := values item (dumpMoreItems items ++ rest) (by omega) (more_items_ends items rest)
      refine ⟨head, tail ++ dumpMoreItems items, by rw [dumpItems, same, List.cons_append], blank, bracket, ?_⟩
      rw [List.append_assoc]
      unfold readItems
      refine bind_some.2 ⟨item, _, read, ?_⟩
      cases items with
      | nil => rfl
      | cons second items =>
        have shorter : (dumpItems (second :: items)).length ≤ fuel := by
          rw [dumpMoreItems, List.length_cons, ← dumpItems] at short
          omega
        obtain ⟨first, left, sameRest, blankRest, -, readRest⟩ := itemLists second items rest shorter
        rw [dumpMoreItems, ← dumpItems, sameRest]
        refine bind_some.2 ⟨',', _, solid_of_solid rfl _, ?_⟩
        rw [if_neg (by decide), if_pos rfl]
        refine bind_some.2 ⟨first, left ++ rest, solid_of_solid blankRest _, ?_⟩
        exact bind_some.2 ⟨second :: items, rest, readRest, rfl⟩
    · intro field fields rest short
      obtain ⟨name, value⟩ := field
      rw [dumpFields, List.length_append, dumpField, List.length_cons, List.length_append, List.length_cons, List.length_cons] at short
      have more := more_fields_length fields
      have escaped := escape_length name.toList
      obtain ⟨head, tail, same, blank, -, read⟩ := values value (dumpMoreFields fields ++ rest) (by omega) (more_fields_ends fields rest)
      refine ⟨_, by rw [dumpFields, dumpField, List.cons_append], ?_⟩
      have text : name.toList.flatMap escapeChar ++ '"' :: ':' :: dumps value ++ dumpMoreFields fields ++ rest =
          name.toList.flatMap escapeChar ++ '"' :: (':' :: head :: (tail ++ (dumpMoreFields fields ++ rest))) := by
        rw [same]
        simp only [List.append_assoc, List.cons_append]
      rw [text]
      unfold readFields
      refine bind_some.2 ⟨name.toList, _, readString_escape name.toList _ (by omega), ?_⟩
      refine bind_some.2 ⟨':', _, solid_of_solid rfl _, ?_⟩
      rw [if_pos rfl]
      refine bind_some.2 ⟨head, _, solid_of_solid blank _, ?_⟩
      refine bind_some.2 ⟨value, _, read, ?_⟩
      rw [String.ofList_toList]
      cases fields with
      | nil => rfl
      | cons second fields =>
        have shorter : (dumpFields (second :: fields)).length ≤ fuel := by
          rw [dumpMoreFields, List.length_cons, ← dumpFields] at short
          omega
        obtain ⟨left, sameRest, readRest⟩ := fieldLists second fields rest shorter
        rw [dumpMoreFields, ← dumpFields, sameRest]
        refine bind_some.2 ⟨',', _, solid_of_solid rfl _, ?_⟩
        rw [if_neg (by decide), if_pos rfl]
        refine bind_some.2 ⟨'"', left ++ rest, solid_of_solid rfl _, ?_⟩
        rw [if_pos rfl]
        exact bind_some.2 ⟨second :: fields, rest, readRest, rfl⟩

theorem loads_dumps (value : Json) : loads (dumps value) = some value := by
  obtain ⟨head, tail, same, blank, -, read⟩ := (read_dumps ((dumps value).length + 1)).1 value [] (by omega) ends_nil
  rw [List.append_nil] at read
  have whole : (solid >>= readValue ((dumps value).length + 1)) (dumps value) = some (value, []) := by
    rw [same] at read ⊢
    exact bind_some.2 ⟨head, tail, solid_of_solid blank _, read⟩
  unfold loads
  rw [whole]
  rfl

theorem loads_cut {fields : List (String × Json)} {text more : List Char} (cut : dumps (.object fields) = text ++ more)
    (visible : more.all isSpace = false) : loads text = none := by
  cases text with
  | nil => rfl
  | cons head tail =>
    have brace : head = '{' := by
      rw [dumps, List.cons_append] at cut
      exact (List.cons.inj cut).1.symm
    subst brace
    by_contra read
    obtain ⟨value, loaded⟩ := Option.ne_none_iff_exists'.1 read
    have whole := loads_append loaded visible
    rw [← cut, loads_dumps] at whole
    cases whole

end JsonText

end Callisto.Library

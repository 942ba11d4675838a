import Mathlib.Data.List.Basic
import Proximity.Json.Text

/-!
# The grammar of JSON

Which texts are JSON, and which values they stand for, said without a reader.  A value is spelled by
many texts: there may be white space around it and inside it, and a character of a string literal
may stand for itself or be escaped.  A character is escaped by its UTF-16 code units, so half of a
surrogate pair never stands alone.

* `Value` : the values.  A number is kept as it is spelled.
* `SpellsText`, `IsNumeral` : the inside of a string literal, and numerals.
* `Spells` : **the texts of a value**, without white space around them.
* `Document` : the texts that hold one value and nothing else.
* `Item.compact`, `Member.compact` : texts without white space.
-/

namespace Proximity

namespace Json

/-! ### Values -/

/-- A JSON value. -/
inductive Value where
  /-- The word `null`. -/
  | null
  /-- One of the words `true` and `false`. -/
  | bool (b : Bool)
  /-- A number, by its numeral. -/
  | number (numeral : List Char)
  /-- A string literal, by what it stands for. -/
  | text (content : String)
  /-- A list. -/
  | list (items : List Value)
  /-- An object, with its members in the order in which they are written. -/
  | object (members : List (String × Value))

/-- A count, as a number without sign, fraction and exponent. -/
def Value.count (n : UInt64) : Value := .number (Nat.toDigits 10 n.toNat)

/-! ### Numerals -/

/-- Digits, at least one. -/
structure IsDigits (s : List Char) : Prop where
  /-- There is a digit. -/
  ne_nil : s ≠ []
  /-- There are only digits. -/
  isDigit : ∀ c ∈ s, c.isDigit = true

/-- The whole part of a numeral: a zero at its beginning stands alone. -/
structure IsWhole (s : List Char) : Prop where
  /-- It consists of digits. -/
  digits : IsDigits s
  /-- There is no superfluous zero. -/
  zero : s.head? = some '0' → s = ['0']

/-- A fraction with its point, or nothing. -/
inductive IsFraction : List Char → Prop where
  /-- There is no fraction. -/
  | absent : IsFraction []
  /-- The digits of the fraction stand behind the point. -/
  | present {digits : List Char} (h : IsDigits digits) : IsFraction ('.' :: digits)

/-- An exponent with its letter, or nothing. -/
inductive IsExponent : List Char → Prop where
  /-- There is no exponent. -/
  | absent : IsExponent []
  /-- The digits of the exponent stand behind the letter, and there may be a sign before them. -/
  | present {letter : Char} {sign digits : List Char} (hletter : letter = 'e' ∨ letter = 'E')
      (hsign : sign = [] ∨ sign = ['+'] ∨ sign = ['-']) (h : IsDigits digits) :
      IsExponent (letter :: (sign ++ digits))

/-- A numeral. -/
inductive IsNumeral : List Char → Prop where
  /-- The parts of a numeral in order. -/
  | mk {sign whole fraction exponent : List Char} (hsign : sign = [] ∨ sign = ['-'])
      (hwhole : IsWhole whole) (hfraction : IsFraction fraction)
      (hexponent : IsExponent exponent) : IsNumeral (sign ++ (whole ++ (fraction ++ exponent)))

/-! ### String literals -/

/-- The UTF-16 code units of a character. -/
def codeUnits (c : Char) : List ℕ :=
  if c.toNat < 0x10000 then [c.toNat]
  else [0xD800 + (c.toNat - 0x10000) / 0x400, 0xDC00 + (c.toNat - 0x10000) % 0x400]

/-- A hexadecimal digit with its value, in either case. -/
def IsHexDigit (c : Char) (n : ℕ) : Prop := n < 16 ∧ (c = n.digitChar ∨ c = n.digitChar.toUpper)

instance (c : Char) (n : ℕ) : Decidable (IsHexDigit c n) :=
  inferInstanceAs (Decidable (_ ∧ (_ ∨ _)))

/-- Code units as escapes, four digits each. -/
inductive EscapesUnits : List ℕ → List Char → Prop where
  /-- No code unit. -/
  | nil : EscapesUnits [] []
  /-- A code unit before others. -/
  | cons {a b c d : Char} {i j k l : ℕ} {units : List ℕ} {s : List Char} (ha : IsHexDigit a i)
      (hb : IsHexDigit b j) (hc : IsHexDigit c k) (hd : IsHexDigit d l)
      (h : EscapesUnits units s) :
      EscapesUnits ((((i * 16 + j) * 16 + k) * 16 + l) :: units)
        ('\\' :: 'u' :: a :: b :: c :: d :: s)

/-- A character inside a string literal. -/
inductive SpellsChar : Char → List Char → Prop where
  /-- The character stands for itself. -/
  | plain {c : Char} (hcontrol : ¬ c < ' ') (hquote : c ≠ '"') (hbackslash : c ≠ '\\') :
      SpellsChar c [c]
  /-- A letter behind a backslash stands for the character. -/
  | escaped {letter c : Char} (h : escaped? letter = some c) : SpellsChar c ['\\', letter]
  /-- The character is given by its code units. -/
  | coded {c : Char} {s : List Char} (h : EscapesUnits (codeUnits c) s) : SpellsChar c s

/-- The inside of a string literal, character by character. -/
inductive SpellsText : List Char → List Char → Prop where
  /-- The empty literal. -/
  | nil : SpellsText [] []
  /-- A character before others. -/
  | cons {c : Char} {content s t : List Char} (hc : SpellsChar c s) (h : SpellsText content t) :
      SpellsText (c :: content) (s ++ t)

/-! ### White space, items and members -/

/-- White space. -/
abbrev Blanks := {s : List Char // ∀ c ∈ s, isBlank c = true}

/-- No white space. -/
def Blanks.none : Blanks := ⟨[], by simp⟩

/-- A value with a text and with the white space around it. -/
structure Item where
  /-- The value. -/
  value : Value
  /-- The text. -/
  text : List Char
  /-- The white space before the text. -/
  before : Blanks
  /-- The white space behind the text. -/
  after : Blanks

/-- The text of an item with its white space. -/
def Item.padded (item : Item) : List Char := item.before.val ++ (item.text ++ item.after.val)

/-- A member of an object with its texts. -/
structure Member where
  /-- What the key stands for. -/
  key : List Char
  /-- The key between its quotation marks. -/
  keyText : List Char
  /-- The white space before the key. -/
  before : Blanks
  /-- The white space behind the key. -/
  after : Blanks
  /-- The value behind the colon. -/
  item : Item

namespace Member

/-- The text of a member with its white space. -/
def padded (member : Member) : List Char :=
  member.before.val ++ '"' :: (member.keyText ++ '"' :: (member.after.val ++
    ':' :: member.item.padded))

/-- The key and the value. -/
def entry (member : Member) : String × Value := (String.ofList member.key, member.item.value)

end Member

/-- Texts with commas between them. -/
def commaSeparated (texts : List (List Char)) : List Char := [','].intercalate texts

@[simp] theorem commaSeparated_singleton (s : List Char) : commaSeparated [s] = s :=
  List.intercalate_singleton

theorem commaSeparated_cons (s : List Char) {texts : List (List Char)} (h : texts ≠ []) :
    commaSeparated (s :: texts) = s ++ ',' :: commaSeparated texts := by
  rw [commaSeparated, List.intercalate_cons_of_ne_nil h, List.append_assoc]
  rfl

/-! ### Texts of values -/

/-- The text `s` spells the value `v`. -/
inductive Spells : Value → List Char → Prop where
  /-- The word `null`. -/
  | null : Spells .null ['n', 'u', 'l', 'l']
  /-- The word `true`. -/
  | true : Spells (.bool true) ['t', 'r', 'u', 'e']
  /-- The word `false`. -/
  | false : Spells (.bool false) ['f', 'a', 'l', 's', 'e']
  /-- A numeral. -/
  | number {s : List Char} (h : IsNumeral s) : Spells (.number s) s
  /-- A string literal between quotation marks. -/
  | text {content s : List Char} (h : SpellsText content s) :
      Spells (.text (String.ofList content)) ('"' :: (s ++ ['"']))
  /-- A list without items. -/
  | emptyList (blanks : Blanks) : Spells (.list []) ('[' :: (blanks.val ++ [']']))
  /-- A list with items. -/
  | list {items : List Item} (hne : items ≠ []) (h : ∀ item ∈ items, Spells item.value item.text) :
      Spells (.list (items.map Item.value))
        ('[' :: (commaSeparated (items.map Item.padded) ++ [']']))
  /-- An object without members. -/
  | emptyObject (blanks : Blanks) : Spells (.object []) ('{' :: (blanks.val ++ ['}']))
  /-- An object with members. -/
  | object {members : List Member} (hne : members ≠ [])
      (hkey : ∀ member ∈ members, SpellsText member.key member.keyText)
      (h : ∀ member ∈ members, Spells member.item.value member.item.text) :
      Spells (.object (members.map Member.entry))
        ('{' :: (commaSeparated (members.map Member.padded) ++ ['}']))

/-- The text holds the value, white space around it and nothing else. -/
def Document (text : String) (v : Value) : Prop :=
  ∃ item : Item, item.value = v ∧ Spells v item.text ∧ text.toList = item.padded

/-! ### Compact texts -/

/-- The character stands for itself in a string literal. -/
def isPlain (c : Char) : Bool := decide (¬ c < ' ' ∧ c ≠ '"' ∧ c ≠ '\\')

theorem spellsText_of_isPlain {content : List Char} (h : content.all isPlain = true) :
    SpellsText content content := by
  induction content with
  | nil => exact .nil
  | cons c content ih =>
    rw [List.all_cons, Bool.and_eq_true] at h
    obtain ⟨hcontrol, hquote, hbackslash⟩ := of_decide_eq_true h.1
    exact .cons (.plain hcontrol hquote hbackslash) (ih h.2)

/-- A string literal without escapes. -/
theorem spells_of_isPlain {content : String} (h : content.toList.all isPlain = true) :
    Spells (.text content) ('"' :: (content.toList ++ ['"'])) := by
  have hspells := Spells.text (spellsText_of_isPlain h)
  rwa [String.ofList_toList] at hspells

/-- An item without white space around it. -/
def Item.compact (v : Value) (text : List Char) : Item := ⟨v, text, .none, .none⟩

@[simp] theorem Item.padded_compact (v : Value) (text : List Char) :
    (Item.compact v text).padded = text :=
  List.append_nil text

/-- A member without white space around its key and its value. -/
def Member.compact (key : String) (v : Value) (text : List Char) : Member :=
  ⟨key.toList, key.toList, .none, .none, .compact v text⟩

@[simp] theorem Member.padded_compact (key : String) (v : Value) (text : List Char) :
    (Member.compact key v text).padded = '"' :: (key.toList ++ '"' :: ':' :: text) :=
  congrArg (fun s => '"' :: (key.toList ++ '"' :: ':' :: s)) (Item.padded_compact v text)

@[simp] theorem Member.entry_compact (key : String) (v : Value) (text : List Char) :
    (Member.compact key v text).entry = (key, v) :=
  Prod.ext (String.ofList_toList) rfl

theorem Spells.document {v : Value} {s : List Char} (h : Spells v s) :
    Document (String.ofList s) v :=
  ⟨.compact v s, rfl, h, by rw [Item.padded_compact, String.toList_ofList]⟩

end Json

end Proximity

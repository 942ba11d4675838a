import Proximity.Json.Skip
import Proximity.Proofs.Json.Numeral
import Proximity.Proofs.Json.Text

/-!
# Skipping values

A value of the grammar is skipped exactly: what was open before it is open after it, and the text
goes on behind it.  The brackets that are open do not matter, which is what carries the induction
through nested lists and objects.

* `Blanks.dropBlanks_append` : white space between tokens does not matter.
* `Begins` : how a text begins behind white space; `Spells.exists_cons` : how values do.
* `Bracket.Piece` : a text that is skipped as an item of a list or as a member of an object.
* `Skipped` : a text that is skipped as one value, under any brackets; `Bracket.skipped_pieces` :
  pieces between brackets are.
* `Spells.skipped` : **the texts of values are skipped**, by induction on how they are spelled.
* `skipValue_spelled` : a value is skipped up to the white space behind it.
-/

namespace Proximity

namespace Json

variable {c : Char} {s t rest : List Char} {v : Value} {brackets : List Bracket}

/-! ### White space -/

theorem isBlank_cases (h : isBlank c = true) : c = ' ' ∨ c = '\n' ∨ c = '\t' ∨ c = '\r' := by
  simpa only [isBlank, Bool.or_eq_true, beq_iff_eq, or_assoc] using h

theorem dropBlanks_cons (h : isBlank c = false) (s : List Char) : dropBlanks (c :: s) = c :: s := by
  rw [dropBlanks, List.dropWhile_cons, h]
  rfl

namespace Blanks

variable (blanks : Blanks)

theorem dropBlanks_append (s : List Char) : dropBlanks (blanks.val ++ s) = dropBlanks s :=
  List.dropWhile_append_of_pos blanks.property

/-- The first character behind white space. -/
theorem dropBlanks_append_cons (h : isBlank c = false) (s : List Char) :
    dropBlanks (blanks.val ++ c :: s) = c :: s := by
  rw [blanks.dropBlanks_append, dropBlanks_cons h]

/-- White space is not part of a numeral. -/
theorem interrupts_append (h : Interrupts s) : Interrupts (blanks.val ++ s) := by
  obtain ⟨b, hb⟩ := blanks
  cases b with
  | nil => exact h
  | cons c b =>
    refine interrupts_cons ?_ _
    rcases isBlank_cases (hb c List.mem_cons_self) with rfl | rfl | rfl | rfl <;> decide

end Blanks

/-- A comma or a closing bracket is not part of a numeral. -/
theorem interrupts_of_closing (h : c = ',' ∨ c = ']' ∨ c = '}') (s : List Char) :
    Interrupts (c :: s) := by
  refine interrupts_cons ?_ s
  rcases h with rfl | rfl | rfl <;> decide

/-! ### How texts begin -/

/-- Behind white space, the text begins with the character. -/
def Begins (s : List Char) (c : Char) : Prop :=
  isBlank c = false ∧ ∃ (blanks : Blanks) (t : List Char), s = blanks.val ++ c :: t

theorem Begins.exists_dropBlanks (h : Begins s c) (rest : List Char) :
    ∃ t, dropBlanks (s ++ rest) = c :: t := by
  obtain ⟨hc, blanks, t, rfl⟩ := h
  refine ⟨t ++ rest, ?_⟩
  rw [List.append_assoc, List.cons_append, blanks.dropBlanks_append_cons hc]

theorem Begins.append (h : Begins s c) (t : List Char) : Begins (s ++ t) c := by
  obtain ⟨hc, blanks, u, rfl⟩ := h
  exact ⟨hc, blanks, u ++ t, by rw [List.append_assoc, List.cons_append]⟩

/-- Pieces with commas between them begin as the first one does. -/
theorem Begins.commaSeparated (h : Begins s c) (texts : List (List Char)) :
    Begins (commaSeparated (s :: texts)) c := by
  cases texts with
  | nil => rwa [commaSeparated_singleton]
  | cons t texts =>
    rw [commaSeparated_cons s (List.cons_ne_nil t texts)]
    exact h.append _

/-- A character that begins a value. -/
inductive Opening : Char → Prop where
  /-- The first letter of a word. -/
  | word {c : Char} (h : c = 'n' ∨ c = 't' ∨ c = 'f') : Opening c
  /-- The beginning of a numeral. -/
  | numeral {c : Char} (h : c = '-' ∨ c.isDigit = true) : Opening c
  /-- A quotation mark. -/
  | quote : Opening '"'
  /-- An opening bracket. -/
  | bracket {c : Char} (h : c = '[' ∨ c = '{') : Opening c

/-- A value begins neither with white space nor with the end of a list or of an object. -/
theorem Opening.ne (h : Opening c) : isBlank c = false ∧ c ≠ ']' ∧ c ≠ '}' := by
  cases h with
  | word h => rcases h with rfl | rfl | rfl <;> decide
  | numeral h =>
    rcases h with rfl | h
    · decide
    · refine ⟨?_, ?_, ?_⟩
      · rw [← Bool.not_eq_true]
        intro hblank
        rcases isBlank_cases hblank with rfl | rfl | rfl | rfl <;> cases h
      · rintro rfl
        cases h
      · rintro rfl
        cases h
  | quote => decide
  | bracket h => rcases h with rfl | rfl <;> decide

theorem Spells.exists_cons (h : Spells v s) : ∃ c t, s = c :: t ∧ Opening c := by
  cases h with
  | null => exact ⟨'n', _, rfl, .word (.inl rfl)⟩
  | true => exact ⟨'t', _, rfl, .word (.inr (.inl rfl))⟩
  | false => exact ⟨'f', _, rfl, .word (.inr (.inr rfl))⟩
  | number h =>
    obtain ⟨c, t, rfl, hc⟩ := h.exists_cons
    exact ⟨c, t, rfl, .numeral hc⟩
  | text h => exact ⟨'"', _, rfl, .quote⟩
  | emptyList blanks => exact ⟨'[', _, rfl, .bracket (.inl rfl)⟩
  | list hne h => exact ⟨'[', _, rfl, .bracket (.inl rfl)⟩
  | emptyObject blanks => exact ⟨'{', _, rfl, .bracket (.inr rfl)⟩
  | object hne hkey h => exact ⟨'{', _, rfl, .bracket (.inr rfl)⟩

/-- An item begins as its value does. -/
theorem Item.exists_begins {item : Item} (h : Spells item.value item.text) :
    ∃ c, Opening c ∧ Begins item.padded c := by
  obtain ⟨c, t, htext, hc⟩ := h.exists_cons
  refine ⟨c, hc, hc.ne.1, item.before, t ++ item.after.val, ?_⟩
  rw [Item.padded, htext, List.cons_append]

/-- A member begins with the quotation mark of its key. -/
theorem Member.begins (member : Member) : Begins member.padded '"' :=
  ⟨rfl, member.before, _, rfl⟩

/-! ### Tokens -/

theorem skipToken_blanks (pending : Pending) (blanks : Blanks) (s : List Char) :
    skipToken pending (blanks.val ++ s) = skipToken pending s := by
  rw [skipToken, skipToken, blanks.dropBlanks_append]

theorem skipToken_cons (pending : Pending) (h : isBlank c = false) (s : List Char) :
    skipToken pending (c :: s) = skipFrom pending c s := by
  rw [skipToken, dropBlanks_cons h]

theorem skipPending_of_skipToken {pending next : Pending} (hp : pending ≠ ⟨.separator, []⟩)
    (h : skipToken pending s = .ok (next, rest)) :
    skipPending pending s = skipPending next rest := by
  rw [skipPending, if_neg hp]
  split
  · rename_i h'
    rw [h] at h'
    cases h'
  · rename_i h'
    rw [h] at h'
    cases h'
    rfl

theorem skipPending_of_skipFrom {pending next : Pending} (hp : pending ≠ ⟨.separator, []⟩)
    (hc : isBlank c = false) (h : skipFrom pending c s = .ok (next, rest)) :
    skipPending pending (c :: s) = skipPending next rest :=
  skipPending_of_skipToken hp ((skipToken_cons pending hc s).trans h)

theorem skipPending_of_error {pending : Pending} {fault : Fault} (hp : pending ≠ ⟨.separator, []⟩)
    (h : skipToken pending s = .error fault) : skipPending pending s = .error fault := by
  rw [skipPending, if_neg hp]
  split
  · rename_i h'
    rw [h] at h'
    cases h'
    rfl
  · rename_i h'
    rw [h] at h'
    cases h'

/-- Only the next token counts. -/
theorem skipPending_congr {p q : Pending} (hp : p ≠ ⟨.separator, []⟩) (hq : q ≠ ⟨.separator, []⟩)
    (h : skipToken p s = skipToken q t) : skipPending p s = skipPending q t := by
  cases hread : skipToken q t with
  | error fault => rw [skipPending_of_error hp (h.trans hread), skipPending_of_error hq hread]
  | ok read =>
    obtain ⟨next, rest⟩ := read
    rw [skipPending_of_skipToken hp (h.trans hread), skipPending_of_skipToken hq hread]

theorem skipPending_blanks {pending : Pending} (hp : pending ≠ ⟨.separator, []⟩) (blanks : Blanks)
    (s : List Char) : skipPending pending (blanks.val ++ s) = skipPending pending s :=
  skipPending_congr hp hp (skipToken_blanks pending blanks s)

/-! ### Brackets -/

namespace Bracket

/-- The bracket that opens a list or an object. -/
def opening : Bracket → Char
  | .list => '['
  | .object => '{'

/-- The bracket that closes it. -/
def closing : Bracket → Char
  | .list => ']'
  | .object => '}'

/-- What may come behind the opening bracket. -/
def first : Bracket → Expected
  | .list => .firstItem
  | .object => .firstKey

/-- What comes behind a comma. -/
def next : Bracket → Expected
  | .list => .value
  | .object => .key

variable (bracket : Bracket)

theorem skipPending_opening (s : List Char) :
    skipPending ⟨.value, brackets⟩ (bracket.opening :: s) =
      skipPending ⟨bracket.first, bracket :: brackets⟩ s := by
  cases bracket <;> exact skipPending_of_skipFrom (by simp) rfl rfl

theorem skipPending_closing (blanks : Blanks) (s : List Char) :
    skipPending ⟨.separator, bracket :: brackets⟩ (blanks.val ++ bracket.closing :: s) =
      skipPending ⟨.separator, brackets⟩ s := by
  rw [skipPending_blanks (by simp)]
  cases bracket <;> exact skipPending_of_skipFrom (by simp) rfl rfl

theorem skipPending_comma (blanks : Blanks) (s : List Char) :
    skipPending ⟨.separator, bracket :: brackets⟩ (blanks.val ++ ',' :: s) =
      skipPending ⟨bracket.next, bracket :: brackets⟩ s := by
  rw [skipPending_blanks (by simp)]
  cases bracket <;> exact skipPending_of_skipFrom (by simp) rfl rfl

theorem interrupts_closing (s : List Char) : Interrupts (bracket.closing :: s) := by
  cases bracket <;> exact interrupts_of_closing (by decide) s

/-- Where the brackets could be closed at once, something else may stand as well. -/
theorem skipPending_first (hs : Begins s c) (hc : c ≠ bracket.closing) (rest : List Char) :
    skipPending ⟨bracket.first, bracket :: brackets⟩ (s ++ rest) =
      skipPending ⟨bracket.next, bracket :: brackets⟩ (s ++ rest) := by
  obtain ⟨t, ht⟩ := hs.exists_dropBlanks rest
  cases bracket <;>
  · refine skipPending_congr (by simp [first]) (by simp [next]) ?_
    rw [skipToken, skipToken, ht]
    exact if_neg hc

/-- The text is skipped as one piece between brackets, up to white space behind it. -/
structure Piece (bracket : Bracket) (s : List Char) : Prop where
  /-- It does not begin with the closing bracket. -/
  begins : ∃ c, Begins s c ∧ c ≠ bracket.closing
  /-- It is skipped. -/
  skips : ∀ (brackets : List Bracket) (rest : List Char), Interrupts rest →
    ∃ blanks : Blanks, skipPending ⟨bracket.next, bracket :: brackets⟩ (s ++ rest) =
      skipPending ⟨.separator, bracket :: brackets⟩ (blanks.val ++ rest)

variable {bracket}

/-- Pieces with commas between them are skipped up to the closing bracket. -/
theorem skipPending_pieces {texts : List (List Char)} (hne : texts ≠ [])
    (h : ∀ t ∈ texts, bracket.Piece t) :
    skipPending ⟨bracket.next, bracket :: brackets⟩
        (commaSeparated texts ++ bracket.closing :: rest) =
      skipPending ⟨.separator, brackets⟩ rest := by
  induction texts with
  | nil => exact absurd rfl hne
  | cons t texts ih =>
    obtain ⟨ht, htexts⟩ := List.forall_mem_cons.1 h
    cases texts with
    | nil =>
      obtain ⟨blanks, hskip⟩ := ht.skips brackets _ (bracket.interrupts_closing rest)
      rw [commaSeparated_singleton, hskip, skipPending_closing]
    | cons u texts =>
      obtain ⟨blanks, hskip⟩ := ht.skips brackets
        (',' :: (commaSeparated (u :: texts) ++ bracket.closing :: rest))
        (interrupts_of_closing (.inl rfl) _)
      rw [commaSeparated_cons t (by simp), List.append_assoc, List.cons_append, hskip,
        skipPending_comma]
      exact ih (by simp) htexts

end Bracket

/-! ### Values -/

/-- The text is skipped as one value, whatever brackets are open. -/
def Skipped (s : List Char) : Prop :=
  ∀ (brackets : List Bracket) (rest : List Char), Interrupts rest →
    skipPending ⟨.value, brackets⟩ (s ++ rest) = skipPending ⟨.separator, brackets⟩ rest

/-- A value without brackets is one token. -/
theorem skipped_of_skipScalar (hc : isBlank c = false) (hlist : c ≠ '[') (hobject : c ≠ '{')
    (h : ∀ rest, Interrupts rest → skipScalar c (s ++ rest) = .ok rest) : Skipped (c :: s) := by
  intro brackets rest hrest
  refine skipPending_of_skipFrom (by simp) hc ?_
  change skipFrom _ c (s ++ rest) = _
  simp only [skipFrom, skipOpening, if_neg hlist, if_neg hobject, h rest hrest]
  rfl

theorem skipped_numeral (h : IsNumeral s) : Skipped s := by
  obtain ⟨c, t, rfl, hc⟩ := h.exists_cons
  have hopening : Opening c := .numeral hc
  have hne : c ≠ '[' ∧ c ≠ '{' ∧ c ≠ '"' := by
    refine ⟨?_, ?_, ?_⟩ <;> rintro rfl <;> revert hc <;> decide
  refine skipped_of_skipScalar hopening.ne.1 hne.1 hne.2.1 fun rest hrest => ?_
  rw [skipScalar, if_neg hne.2.2, if_pos hc]
  exact skipNumeral_spelled h hrest

namespace Bracket

variable (bracket : Bracket)

theorem skipped_empty (blanks : Blanks) :
    Skipped (bracket.opening :: (blanks.val ++ [bracket.closing])) := by
  intro brackets rest _
  have hclose : skipPending ⟨bracket.first, bracket :: brackets⟩ (bracket.closing :: rest) =
      skipPending ⟨.separator, brackets⟩ rest := by
    cases bracket <;> exact skipPending_of_skipFrom (by simp [first]) rfl rfl
  rw [List.cons_append, List.append_assoc, skipPending_opening,
    skipPending_blanks (by cases bracket <;> simp [first])]
  exact hclose

/-- **Pieces between brackets are skipped** as one value. -/
theorem skipped_pieces {texts : List (List Char)} (hne : texts ≠ [])
    (h : ∀ t ∈ texts, bracket.Piece t) :
    Skipped (bracket.opening :: (commaSeparated texts ++ [bracket.closing])) := by
  intro brackets rest _
  obtain ⟨t, texts, rfl⟩ := List.exists_cons_of_ne_nil hne
  obtain ⟨c, hbegins, hc⟩ := (h t List.mem_cons_self).begins
  rw [List.cons_append, List.append_assoc, skipPending_opening,
    bracket.skipPending_first (hbegins.commaSeparated texts) hc]
  exact skipPending_pieces hne h

end Bracket

/-- An item with the white space around it is skipped, except for the white space behind it. -/
theorem Item.skipPending_padded {item : Item} (h : Skipped item.text) (hrest : Interrupts rest)
    (brackets : List Bracket) :
    skipPending ⟨.value, brackets⟩ (item.padded ++ rest) =
      skipPending ⟨.separator, brackets⟩ (item.after.val ++ rest) := by
  rw [Item.padded, List.append_assoc, List.append_assoc, skipPending_blanks (by simp)]
  exact h brackets _ (item.after.interrupts_append hrest)

theorem Item.piece {item : Item} (hspells : Spells item.value item.text)
    (h : Skipped item.text) : Bracket.list.Piece item.padded where
  begins := by
    obtain ⟨c, hc, hbegins⟩ := Item.exists_begins hspells
    exact ⟨c, hbegins, hc.ne.2.1⟩
  skips brackets _ hrest := ⟨item.after, Item.skipPending_padded h hrest (.list :: brackets)⟩

theorem Member.piece {member : Member} (hkey : SpellsText member.key member.keyText)
    (h : Skipped member.item.text) : Bracket.object.Piece member.padded where
  begins := ⟨'"', member.begins, by decide⟩
  skips brackets rest hrest := by
    refine ⟨member.item.after, ?_⟩
    have htext : member.padded ++ rest = member.before.val ++ '"' :: (member.keyText ++
        '"' :: (member.after.val ++ ':' :: (member.item.padded ++ rest))) := by
      simp only [Member.padded, List.append_assoc, List.cons_append]
    have hquote : skipFrom ⟨.key, .object :: brackets⟩ '"' (member.keyText ++
        '"' :: (member.after.val ++ ':' :: (member.item.padded ++ rest))) =
        .ok (⟨.colon, .object :: brackets⟩,
          member.after.val ++ ':' :: (member.item.padded ++ rest)) := by
      simp only [skipFrom, skipKey, ↓reduceIte, skipText_spelled hkey]
      rfl
    change skipPending ⟨.key, .object :: brackets⟩ (member.padded ++ rest) = _
    rw [htext, skipPending_blanks (by simp), skipPending_of_skipFrom (by simp) rfl hquote,
      skipPending_blanks (by simp), skipPending_of_skipFrom (by simp) rfl rfl]
    exact Item.skipPending_padded h hrest _

/-- **The text of a value is skipped.** -/
theorem Spells.skipped (h : Spells v s) : Skipped s := by
  induction h with
  | null => exact skipped_of_skipScalar rfl (by decide) (by decide) fun rest _ => rfl
  | true => exact skipped_of_skipScalar rfl (by decide) (by decide) fun rest _ => rfl
  | false => exact skipped_of_skipScalar rfl (by decide) (by decide) fun rest _ => rfl
  | number h => exact skipped_numeral h
  | text h =>
    refine skipped_of_skipScalar rfl (by decide) (by decide) fun rest _ => ?_
    rw [List.append_assoc]
    exact skipText_spelled h rest
  | emptyList blanks => exact Bracket.list.skipped_empty blanks
  | list hne h ih =>
    exact Bracket.list.skipped_pieces (by simpa using hne)
      (List.forall_mem_map.2 fun item hmem => Item.piece (h item hmem) (ih item hmem))
  | emptyObject blanks => exact Bracket.object.skipped_empty blanks
  | object hne hkey h ih =>
    exact Bracket.object.skipped_pieces (by simpa using hne)
      (List.forall_mem_map.2 fun member hmem => Member.piece (hkey member hmem) (ih member hmem))

/-- **A value is skipped** up to the white space behind it. -/
theorem skipValue_spelled {item : Item} (h : Spells item.value item.text)
    (hrest : Interrupts rest) :
    skipValue (item.padded ++ rest) = .ok (item.after.val ++ rest) := by
  rw [skipValue, Item.skipPending_padded h.skipped hrest, skipPending, if_pos rfl]

end Json

end Proximity

import Mathlib.Data.List.DropRight
import Proximity.Proofs.Config.Represents
import Proximity.Proofs.Json.Skip
import Proximity.Proofs.Observations

/-!
# Which texts are configurations

The reader goes through the text of a configuration character by character.  Here it is compared
with what the text says as a value of JSON: a text that holds a value is read to a configuration if
and only if the value represents it.  One member of an object is a step, and the members that have
been read before it are what the steps keep.

* `Reads` : a reader reads the values that mean something, to their end, and no others.
* `readNorm_reads`, `readCount_reads` : the values of the fields.
* `readMember_spelled`, `readMembers_spelled` : one member of an object, and all of them.
* `readArray_spelled` : the items of a list.
* `readConfig_reads`, `ofJson_eq_ok_iff` : **what is read** as a configuration; `ofJson_document` :
  and what it does not depend on.
-/

namespace Proximity

namespace Config

open Json

variable {α : Type} {means : Value → α → Prop}

/-! ### Readers -/

variable {read : List Char → Reading α} {s rest : List Char}

/-- The reader reads the values that mean something, up to the white space behind them, and it fails
at the others. -/
def Reads (read : List Char → Reading α) (means : Value → α → Prop) : Prop :=
  ∀ ⦃item : Item⦄ ⦃rest : List Char⦄, Spells item.value item.text → Interrupts rest → ∀ r,
    read (item.padded ++ rest) = .ok r ↔
      ∃ a, means item.value a ∧ r = (a, item.after.val ++ rest)

theorem dropBlanks_dropBlanks (s : List Char) : dropBlanks (dropBlanks s) = dropBlanks s :=
  List.dropWhile_idempotent isBlank s

/-- A reader that drops white space is looked at from the first character of a value on. -/
theorem reads_of_text (hblanks : ∀ s, read (dropBlanks s) = read s)
    (h : ∀ ⦃v : Value⦄ ⦃s rest : List Char⦄, Spells v s → Interrupts rest → ∀ r,
      read (s ++ rest) = .ok r ↔ ∃ a, means v a ∧ r = (a, rest)) : Reads read means := by
  intro item rest hitem hrest r
  have hdrop : read (item.padded ++ rest) = read (item.text ++ (item.after.val ++ rest)) := by
    rw [← hblanks, Item.padded, List.append_assoc, List.append_assoc,
      item.before.dropBlanks_append, hblanks]
  rw [hdrop]
  exact h hitem (item.after.interrupts_append hrest) r

/-- A reader that fails at a value, which means nothing. -/
theorem reads_iff_of_error {x : Reading α} {fault : Fault} (hx : x = .error fault) {p : α → Prop}
    (hp : ∀ a, ¬ p a) (r : α × List Char) : x = .ok r ↔ ∃ a, p a ∧ r = (a, rest) := by
  rw [hx]
  constructor
  · rintro ⟨⟩
  · rintro ⟨a, ha, -⟩
    exact absurd ha (hp a)

/-! ### Norms and counts -/

theorem readNorm_of_ne {c : Char} (hblank : isBlank c = false) (hc : c ≠ '"') (s : List Char) :
    readNorm (c :: s) = .error (wrongKind (c :: s)) := by
  rw [readNorm, dropBlanks_cons hblank]
  split
  · rename_i heq
    exact absurd (List.cons.inj heq).1 hc
  · rfl

theorem readNorm_text {content t : List Char} (h : SpellsText content t) (rest : List Char) :
    readNorm ('"' :: (t ++ ['"']) ++ rest) = .ok (.ofName (String.ofList content), rest) := by
  have hread : readText (t ++ ['"'] ++ rest) = .ok (content, rest) := by
    rw [List.append_assoc]
    exact readText_spelled h rest
  rw [List.cons_append, readNorm, dropBlanks_cons rfl]
  simp only [hread]
  rfl

theorem readNorm_dropBlanks (s : List Char) : readNorm (dropBlanks s) = readNorm s := by
  rw [readNorm, readNorm, dropBlanks_dropBlanks]

/-- **A norm is read** from a string literal and from nothing else. -/
theorem readNorm_reads : Reads readNorm NamesNorm := by
  refine reads_of_text readNorm_dropBlanks ?_
  intro v s rest h hrest r
  cases h with
  | text h =>
    rw [readNorm_text h]
    constructor
    · rintro ⟨⟩
      exact ⟨_, ⟨_, rfl, rfl⟩, rfl⟩
    · rintro ⟨norm, ⟨name, ⟨⟩, rfl⟩, rfl⟩
      rfl
  | number h =>
    obtain ⟨c, t, rfl, hc⟩ := h.exists_cons
    have hquote : c ≠ '"' := by
      rintro rfl
      revert hc
      decide
    exact reads_iff_of_error (readNorm_of_ne (Opening.numeral hc).ne.1 hquote _)
      (by rintro norm ⟨name, ⟨⟩, -⟩) r
  | null | true | false | emptyList | list | emptyObject | object =>
    exact reads_iff_of_error (readNorm_of_ne rfl (by decide) _)
      (by rintro norm ⟨name, ⟨⟩, -⟩) r

theorem readCount_of_ne {c : Char} (hblank : isBlank c = false)
    (hc : ¬ (c = '-' ∨ c.isDigit = true)) (s : List Char) :
    readCount (c :: s) = .error (wrongKind (c :: s)) := by
  simp only [readCount, dropBlanks_cons hblank, if_neg hc]

theorem readCount_numeral (h : IsNumeral s) (hrest : Interrupts rest) (r : UInt64 × List Char) :
    readCount (s ++ rest) = .ok r ↔ ∃ k, s = Nat.toDigits 10 k.toNat ∧ r = (k, rest) := by
  obtain ⟨n, hread, hcount⟩ := readNumeral_spelled h hrest
  obtain ⟨c, t, rfl, hc⟩ := h.exists_cons
  simp only [← hcount]
  rw [List.cons_append] at hread ⊢
  simp only [readCount, dropBlanks_cons (Opening.numeral hc).ne.1, if_pos hc, readNumber, hread]
  cases hk : n.count? with
  | none =>
    constructor
    · split_ifs
      · rintro ⟨⟩
      · simp only [hk]
        rintro ⟨⟩
    · rintro ⟨k, ⟨⟩, -⟩
  | some k =>
    -- a count is small enough to be read as a number
    simp only [isHuge_of_count? hk, hk, Bool.false_eq_true, if_false]
    constructor
    · rintro ⟨⟩
      exact ⟨k, rfl, rfl⟩
    · rintro ⟨k, ⟨⟩, rfl⟩
      rfl

/-- **A count is read** from its decimal notation and from nothing else. -/
theorem readCount_reads : Reads readCount IsCount := by
  refine reads_of_text (fun s => by rw [readCount, readCount, dropBlanks_dropBlanks]) ?_
  intro v s rest h hrest r
  cases h with
  | number h =>
    rw [readCount_numeral h hrest]
    simp only [IsCount, Value.count, Value.number.injEq]
  | null | true | false | text | emptyList | list | emptyObject | object =>
    exact reads_iff_of_error (readCount_of_ne rfl (by decide) _) (by rintro k ⟨⟩) r

/-! ### Members of an object -/

theorem readColon_append (blanks : Blanks) (s : List Char) :
    readColon (blanks.val ++ ':' :: s) = .ok s := by
  simp only [readColon, blanks.dropBlanks_append_cons (c := ':') rfl]

/-- The value of a field is read if the field is empty. -/
theorem readField_spelled (hread : Reads read means) {item : Item}
    (h : Spells item.value item.text) (hrest : Interrupts rest) (old : Option α)
    (put : α → Members) (r : Members × List Char) :
    (if old.isSome then .error .mismatch
      else (read (item.padded ++ rest)).map fun r => (put r.1, r.2) : Reading Members) = .ok r ↔
      ∃ next, (old = none ∧ ∃ a, means item.value a ∧ next = put a) ∧
        r = (next, item.after.val ++ rest) := by
  cases old with
  | some old => exact reads_iff_of_error rfl (by rintro next ⟨⟨⟩, -⟩) r
  | none =>
    simp only [Option.isSome_none, Bool.false_eq_true, if_false, map_eq_ok_iff, hread h hrest,
      true_and]
    constructor
    · rintro ⟨_, ⟨a, ha, rfl⟩, rfl⟩
      exact ⟨put a, ⟨a, ha, rfl⟩, rfl⟩
    · rintro ⟨_, ⟨a, ha, rfl⟩, rfl⟩
      exact ⟨(a, _), ⟨a, ha, rfl⟩, rfl⟩

/-- The value of a member is read if it may fill a field, or if it is none. -/
theorem readMemberValue_spelled (members : Members) (key : String) (blanks : Blanks) {item : Item}
    (h : Spells item.value item.text) (hrest : Interrupts rest) (r : Members × List Char) :
    readMemberValue members key (blanks.val ++ ':' :: (item.padded ++ rest)) = .ok r ↔
      ∃ next, Filled members [(key, item.value)] next ∧ r = (next, item.after.val ++ rest) := by
  simp only [readMemberValue, readColon_append]
  by_cases hnorm : key = "norm"
  · subst hnorm
    simp only [if_true, filled_norm_iff]
    exact readField_spelled readNorm_reads h hrest _
      (fun norm => { members with norm := some norm }) r
  by_cases hmaxRows : key = "max_rows_for_fast"
  · subst hmaxRows
    simp only [if_neg hnorm, if_true, filled_maxRows_iff]
    exact readField_spelled readCount_reads h hrest _
      (fun n => { members with maxRows := some n }) r
  simp only [if_neg hnorm, if_neg hmaxRows, filled_other_iff hnorm hmaxRows,
    skipValue_spelled h hrest, exists_eq_left]
  exact ⟨fun heq => (Except.ok.inj heq).symm, fun heq => congrArg Except.ok heq.symm⟩

/-- **One member** of an object. -/
theorem readMember_spelled (members : Members) {member : Member}
    (hkey : SpellsText member.key member.keyText)
    (h : Spells member.item.value member.item.text) (hrest : Interrupts rest)
    (r : Members × List Char) :
    readMember members (member.padded ++ rest) = .ok r ↔
      ∃ next, Filled members [member.entry] next ∧ r = (next, member.item.after.val ++ rest) := by
  have htext : member.padded ++ rest = member.before.val ++ '"' :: (member.keyText ++
      '"' :: (member.after.val ++ ':' :: (member.item.padded ++ rest))) := by
    simp only [Member.padded, List.append_assoc, List.cons_append]
  simp only [htext, readMember, member.before.dropBlanks_append_cons (c := '"') rfl,
    readText_spelled hkey]
  exact readMemberValue_spelled members _ member.after h hrest r

theorem readMember_dropBlanks (members : Members) (s : List Char) :
    readMember members (dropBlanks s) = readMember members s := by
  rw [readMember, readMember, dropBlanks_dropBlanks]

/-- Behind a member there is the end of the object, or a comma and the other members. -/
theorem readMembers_eq_ok_iff {members : Members} {r : Members × List Char} :
    readMembers members s = .ok r ↔ ∃ next t, readMember members s = .ok (next, t) ∧
      ((∃ u, dropBlanks t = '}' :: u ∧ r = (next, u)) ∨
        ∃ u, dropBlanks t = ',' :: u ∧ readMembers next u = .ok r) := by
  rw [readMembers]
  constructor
  · intro h
    split at h
    · cases h
    · rename_i next t hmember
      refine ⟨next, t, hmember, ?_⟩
      split at h
      · cases h
      · rename_i u hu
        cases h
        exact .inl ⟨u, hu, rfl⟩
      · rename_i u hu
        exact .inr ⟨u, hu, h⟩
      · cases h
  · rintro ⟨next, t, hmember, h⟩
    split
    · rename_i hfault
      rw [hmember] at hfault
      cases hfault
    · rename_i hmember'
      rw [hmember] at hmember'
      cases hmember'
      rcases h with ⟨u, hu, rfl⟩ | ⟨u, hu, h⟩
      · split <;> simp_all
      · split <;> simp_all

/-- **All members** of an object, by induction on them, whatever has been read before them. -/
theorem readMembers_spelled (members : Members) {ms : List Member} (hne : ms ≠ [])
    (hkey : ∀ member ∈ ms, SpellsText member.key member.keyText)
    (h : ∀ member ∈ ms, Spells member.item.value member.item.text) (r : Members × List Char) :
    readMembers members (commaSeparated (ms.map Member.padded) ++ '}' :: rest) = .ok r ↔
      ∃ next, Filled members (ms.map Member.entry) next ∧ r = (next, rest) := by
  induction ms generalizing members with
  | nil => exact absurd rfl hne
  | cons member ms ih =>
    obtain ⟨hkey₁, hkeys⟩ := List.forall_mem_cons.1 hkey
    obtain ⟨h₁, hs⟩ := List.forall_mem_cons.1 h
    have hclose (s : List Char) : Interrupts ('}' :: s) := interrupts_of_closing (by decide) s
    have hcomma (s : List Char) : Interrupts (',' :: s) := interrupts_of_closing (by decide) s
    rw [readMembers_eq_ok_iff]
    cases ms with
    | nil =>
      simp only [List.map_cons, List.map_nil, commaSeparated_singleton,
        readMember_spelled members hkey₁ h₁ (hclose rest)]
      constructor
      · rintro ⟨next, _, ⟨_, hnext, ⟨⟩⟩, hend⟩
        rw [member.item.after.dropBlanks_append_cons rfl] at hend
        rcases hend with ⟨u, ⟨⟩, rfl⟩ | ⟨u, ⟨⟩, -⟩
        exact ⟨next, hnext, rfl⟩
      · rintro ⟨next, hnext, rfl⟩
        exact ⟨next, _, ⟨next, hnext, rfl⟩,
          .inl ⟨rest, member.item.after.dropBlanks_append_cons rfl _, rfl⟩⟩
    | cons member' ms =>
      have htext : commaSeparated ((member :: member' :: ms).map Member.padded) ++ '}' :: rest =
          member.padded ++
            ',' :: (commaSeparated ((member' :: ms).map Member.padded) ++ '}' :: rest) := by
        rw [List.map_cons, commaSeparated_cons _ (by simp), List.append_assoc, List.cons_append]
      have hentries : (member :: member' :: ms).map Member.entry =
          [member.entry] ++ (member' :: ms).map Member.entry := rfl
      have ih' (mid : Members) := ih mid (by simp) hkeys hs
      simp only [htext, hentries, filled_append, readMember_spelled members hkey₁ h₁ (hcomma _)]
      constructor
      · rintro ⟨mid, _, ⟨_, hmid, ⟨⟩⟩, hend⟩
        rw [member.item.after.dropBlanks_append_cons rfl] at hend
        rcases hend with ⟨u, ⟨⟩, -⟩ | ⟨u, ⟨⟩, hrest⟩
        obtain ⟨next, hnext, rfl⟩ := (ih' mid).1 hrest
        exact ⟨next, ⟨mid, hmid, hnext⟩, rfl⟩
      · rintro ⟨next, ⟨mid, hmid, hnext⟩, rfl⟩
        exact ⟨mid, _, ⟨mid, hmid, rfl⟩,
          .inr ⟨_, member.item.after.dropBlanks_append_cons rfl _, (ih' mid).2 ⟨next, hnext, rfl⟩⟩⟩

/-! ### Objects -/

theorem readMembers_dropBlanks (members : Members) (s : List Char) (r : Members × List Char) :
    readMembers members (dropBlanks s) = .ok r ↔ readMembers members s = .ok r := by
  rw [readMembers_eq_ok_iff, readMembers_eq_ok_iff, readMember_dropBlanks]

/-- Without members, everything is standard. -/
theorem readObject_empty (blanks : Blanks) (rest : List Char) (r : Config × List Char) :
    readObject (blanks.val ++ '}' :: rest) = .ok r ↔
      ∃ c, Represents (.object []) c ∧ r = (c, rest) := by
  simp only [readObject, blanks.dropBlanks_append_cons (c := '}') rfl, represents_object_iff,
    filled_nil_iff]
  constructor
  · rintro ⟨⟩
    exact ⟨standard, ⟨_, rfl, rfl⟩, rfl⟩
  · rintro ⟨_, ⟨_, rfl, rfl⟩, rfl⟩
    rfl

/-- An object that does not end at once has members. -/
theorem readObject_of_begins (hs : Begins s '"') (rest : List Char) (r : Config × List Char) :
    readObject (s ++ rest) = .ok r ↔
      ∃ read, readMembers {} (s ++ rest) = .ok read ∧ (ofMembers read.1, read.2) = r := by
  obtain ⟨t, ht⟩ := hs.exists_dropBlanks rest
  have hread : readObject (s ++ rest) = (readMembers {} (dropBlanks (s ++ rest))).map
      fun read => (ofMembers read.1, read.2) := by
    rw [readObject, ht]
    rfl
  simp only [hread, map_eq_ok_iff, readMembers_dropBlanks]

theorem readObject_spelled {ms : List Member} (hne : ms ≠ [])
    (hkey : ∀ member ∈ ms, SpellsText member.key member.keyText)
    (h : ∀ member ∈ ms, Spells member.item.value member.item.text) (rest : List Char)
    (r : Config × List Char) :
    readObject (commaSeparated (ms.map Member.padded) ++ '}' :: rest) = .ok r ↔
      ∃ c, Represents (.object (ms.map Member.entry)) c ∧ r = (c, rest) := by
  have hbegins : Begins (commaSeparated (ms.map Member.padded)) '"' := by
    obtain ⟨member, ms, rfl⟩ := List.exists_cons_of_ne_nil hne
    exact member.begins.commaSeparated _
  simp only [readObject_of_begins hbegins, readMembers_spelled {} hne hkey h,
    represents_object_iff]
  constructor
  · rintro ⟨_, ⟨members, hmembers, rfl⟩, rfl⟩
    exact ⟨_, ⟨members, hmembers, rfl⟩, rfl⟩
  · rintro ⟨_, ⟨members, hmembers, rfl⟩, rfl⟩
    exact ⟨(members, rest), ⟨members, hmembers, rfl⟩, rfl⟩

/-! ### Lists -/

theorem readArrayEnd_append (config : Config) (blanks : Blanks) {c : Char}
    (hc : isBlank c = false) (s : List Char) (r : Config × List Char) :
    readArrayEnd config (blanks.val ++ c :: s) = .ok r ↔ c = ']' ∧ r = (config, s) := by
  rw [readArrayEnd, blanks.dropBlanks_append_cons hc]
  constructor
  · split
    · rintro ⟨⟩
    · rename_i heq
      cases heq
      rintro ⟨⟩
      exact ⟨rfl, rfl⟩
    · rintro ⟨⟩
  · rintro ⟨rfl, rfl⟩
    rfl

/-- A list may end behind its norm. -/
theorem readArrayRest_end (config : Config) (blanks : Blanks) (s : List Char) :
    readArrayRest config (blanks.val ++ ']' :: s) = .ok (config, s) := by
  rw [readArrayRest, blanks.dropBlanks_append_cons rfl]
  rfl

/-- A list may go on behind its norm with a count and the end. -/
theorem readArrayRest_comma (config : Config) (blanks : Blanks) (s : List Char)
    (r : Config × List Char) :
    readArrayRest config (blanks.val ++ ',' :: s) = .ok r ↔
      ∃ n t, readCount s = .ok (n, t) ∧ readArrayEnd (config.withMaxRows n) t = .ok r := by
  rw [readArrayRest, blanks.dropBlanks_append_cons rfl]
  cases hcount : readCount s with
  | error fault => simp [hcount]
  | ok read =>
    obtain ⟨n, t⟩ := read
    simp [hcount]

/-- Behind the norm, there may be one count. -/
theorem readArrayRest_spelled (config : Config) (blanks : Blanks) {item : Item} {items : List Item}
    (h : ∀ i ∈ item :: items, Spells i.value i.text) (rest : List Char) (r : Config × List Char) :
    readArrayRest config
        (blanks.val ++ ',' :: (commaSeparated ((item :: items).map Item.padded) ++ ']' :: rest)) =
          .ok r ↔
      ∃ n, (IsCount item.value n ∧ items = []) ∧ r = (config.withMaxRows n, rest) := by
  have hitem := h item List.mem_cons_self
  rw [readArrayRest_comma]
  cases items with
  | nil =>
    rw [List.map_singleton, commaSeparated_singleton]
    simp only [readCount_reads hitem (interrupts_of_closing (c := ']') (by decide) rest), and_true]
    constructor
    · rintro ⟨n, _, ⟨_, hn, ⟨⟩⟩, hend⟩
      exact ⟨n, hn, ((readArrayEnd_append _ item.after rfl _ _).1 hend).2⟩
    · rintro ⟨n, hn, rfl⟩
      exact ⟨n, _, ⟨n, hn, rfl⟩, (readArrayEnd_append _ item.after rfl _ _).2 ⟨rfl, rfl⟩⟩
  | cons item' items =>
    rw [List.map_cons, commaSeparated_cons _ (by simp), List.append_assoc, List.cons_append]
    simp only [readCount_reads hitem (interrupts_of_closing (c := ',') (by decide) _)]
    constructor
    · rintro ⟨n, _, ⟨_, hn, ⟨⟩⟩, hend⟩
      cases ((readArrayEnd_append _ item.after rfl _ _).1 hend).1
    · rintro ⟨n, ⟨-, ⟨⟩⟩, -⟩

/-- A list without items is standard. -/
theorem readArray_empty (blanks : Blanks) (rest : List Char) (r : Config × List Char) :
    readArray (blanks.val ++ ']' :: rest) = .ok r ↔
      ∃ c, Represents (.list []) c ∧ r = (c, rest) := by
  simp only [readArray, blanks.dropBlanks_append_cons (c := ']') rfl, represents_list_nil_iff,
    exists_eq_left]
  exact ⟨fun heq => (Except.ok.inj heq).symm, fun heq => congrArg Except.ok heq.symm⟩

/-- A list that does not end at once begins with a norm. -/
theorem readArray_of_begins {c : Char} (hs : Begins s c) (hc : c ≠ ']') (rest : List Char)
    (r : Config × List Char) :
    readArray (s ++ rest) = .ok r ↔ ∃ norm t, readNorm (s ++ rest) = .ok (norm, t) ∧
      readArrayRest (standard.withNorm norm) t = .ok r := by
  obtain ⟨t, ht⟩ := hs.exists_dropBlanks rest
  rw [← readNorm_dropBlanks, readArray, ht]
  split
  · rename_i heq
    exact absurd (List.cons.inj heq).1 hc
  · cases hnorm : readNorm (c :: t) with
    | error fault => simp
    | ok read =>
      obtain ⟨norm, u⟩ := read
      simp

/-- **The items** of a list. -/
theorem readArray_spelled {items : List Item} (hne : items ≠ [])
    (h : ∀ item ∈ items, Spells item.value item.text) (rest : List Char)
    (r : Config × List Char) :
    readArray (commaSeparated (items.map Item.padded) ++ ']' :: rest) = .ok r ↔
      ∃ c, Represents (.list (items.map Item.value)) c ∧ r = (c, rest) := by
  obtain ⟨item, items, rfl⟩ := List.exists_cons_of_ne_nil hne
  have hitem := h item List.mem_cons_self
  obtain ⟨c, hc, hbegins⟩ := Item.exists_begins hitem
  rw [List.map_cons, readArray_of_begins (hbegins.commaSeparated _) hc.ne.2.1]
  cases items with
  | nil =>
    simp only [List.map_cons, commaSeparated_singleton, represents_list_cons_iff,
      readNorm_reads hitem (interrupts_of_closing (c := ']') (by decide) rest),
      List.map_nil, given_nil_iff, exists_eq_left]
    constructor
    · rintro ⟨norm, _, ⟨_, hnorm, ⟨⟩⟩, hend⟩
      rw [readArrayRest_end] at hend
      cases hend
      exact ⟨_, ⟨norm, hnorm, rfl⟩, rfl⟩
    · rintro ⟨_, ⟨norm, hnorm, rfl⟩, rfl⟩
      exact ⟨norm, _, ⟨norm, hnorm, rfl⟩, readArrayRest_end _ item.after rest⟩
  | cons item' items =>
    rw [List.map_cons, commaSeparated_cons _ (by simp), List.append_assoc, List.cons_append]
    simp only [readNorm_reads hitem (interrupts_of_closing (c := ',') (by decide) _),
      List.map_cons, represents_list_cons_iff, given_isCount_cons_iff, List.map_eq_nil_iff]
    constructor
    · rintro ⟨norm, _, ⟨_, hnorm, ⟨⟩⟩, hend⟩
      obtain ⟨n, hn, rfl⟩ := (readArrayRest_spelled _ item.after (List.forall_mem_cons.1 h).2
        rest r).1 hend
      exact ⟨_, ⟨norm, hnorm, _, ⟨n, hn, rfl⟩, rfl⟩, rfl⟩
    · rintro ⟨_, ⟨norm, hnorm, _, ⟨n, hn, rfl⟩, rfl⟩, rfl⟩
      exact ⟨norm, _, ⟨norm, hnorm, rfl⟩, (readArrayRest_spelled _ item.after
        (List.forall_mem_cons.1 h).2 rest _).2 ⟨n, hn, rfl⟩⟩

/-! ### Configurations -/

theorem readConfig_of_ne {c : Char} (hblank : isBlank c = false) (hobject : c ≠ '{')
    (hlist : c ≠ '[') (s : List Char) : readConfig (c :: s) = .error (wrongKind (c :: s)) := by
  rw [readConfig, dropBlanks_cons hblank]
  split
  · rename_i heq
    exact absurd (List.cons.inj heq).1 hobject
  · rename_i heq
    exact absurd (List.cons.inj heq).1 hlist
  · rfl

/-- **A configuration is read** from a value that represents one, and from no other value. -/
theorem readConfig_reads : Reads readConfig Represents := by
  refine reads_of_text (fun s => by rw [readConfig, readConfig, dropBlanks_dropBlanks]) ?_
  intro v s rest h hrest r
  cases h with
  | emptyObject blanks =>
    rw [List.cons_append, List.append_assoc]
    exact readObject_empty blanks rest r
  | object hne hkey h =>
    rw [List.cons_append, List.append_assoc]
    exact readObject_spelled hne hkey h rest r
  | emptyList blanks =>
    rw [List.cons_append, List.append_assoc]
    exact readArray_empty blanks rest r
  | list hne h =>
    rw [List.cons_append, List.append_assoc]
    exact readArray_spelled hne h rest r
  | number h =>
    obtain ⟨c, t, rfl, hc⟩ := h.exists_cons
    have hbracket : c ≠ '{' ∧ c ≠ '[' := by
      refine ⟨?_, ?_⟩ <;> rintro rfl <;> revert hc <;> decide
    exact reads_iff_of_error
      (readConfig_of_ne (Opening.numeral hc).ne.1 hbracket.1 hbracket.2 _) (by rintro c ⟨⟩) r
  | null | true | false | text =>
    exact reads_iff_of_error (readConfig_of_ne rfl (by decide) (by decide) _) (by rintro c ⟨⟩) r

/-- **What is read as a configuration.** -/
theorem ofJson_eq_ok_iff {text : String} {v : Value} (h : Document text v) (c : Config) :
    ofJson text = .ok c ↔ Represents v c := by
  obtain ⟨item, rfl, hspells, htext⟩ := h
  have hread := readConfig_reads hspells (show Interrupts [] by rintro c ⟨⟩)
  have hdrop : dropBlanks (item.after.val ++ []) = [] := item.after.dropBlanks_append []
  rw [List.append_nil, ← htext] at hread
  rw [ofJson]
  constructor
  · intro hok
    split at hok
    · cases hok
    · rename_i c' t hconfig
      obtain ⟨_, hc', ⟨⟩⟩ := (hread _).1 hconfig
      rw [if_pos hdrop] at hok
      cases hok
      exact hc'
  · intro hc
    simp only [(hread _).2 ⟨c, hc, rfl⟩, hdrop, if_true]

/-- **What is read as a configuration**, of the texts that hold a value: an object with at most one
value for each field, or a list of such values, and nothing else.  A text whose fields are the same
is read to the same configuration, whatever there is beside them and however it is written. -/
theorem ofJson_document {text text' : String} {v v' : Value} (h : Document text v)
    (h' : Document text' v') :
    (∀ c, ofJson text = .ok c ↔ Represents v c) ∧
      (SameFields v v' → ∀ c, ofJson text = .ok c ↔ ofJson text' = .ok c) := by
  refine ⟨ofJson_eq_ok_iff h, fun hsame c => ?_⟩
  rw [ofJson_eq_ok_iff h, ofJson_eq_ok_iff h', hsame.represents_iff]

/-- A field behind a member that holds another one of its name, with an escape in its own name. -/
theorem ofJson_document_nested :
    let text := "\x7b\"a\":\x7b\"norm\":0\x7d,\"n\\u006frm\":\"max_norm\"\x7d"
    let v := .object [("a", .object [("norm", .number ['0'])]), ("norm", .text "max_norm")]
    let text' := " [ \"max_norm\" ]"
    let v' := .list [.text "max_norm"]
    let c : Config := ⟨.maxNorm, standard.maxRowsForFast⟩
    Document text v ∧ Document text' v' ∧ SameFields v v' ∧ Represents v c ∧
      ofJson text = .ok c ∧ ofJson text' = .ok c := by
  intro text v text' v' c
  have htoken : Spells (.text "max_norm") "\"max_norm\"".toList := spells_of_isPlain (by decide)
  have hn : SpellsChar 'n' ['n'] := .plain (by decide) (by decide) (by decide)
  have ho : SpellsChar 'o' ['\\', 'u', '0', '0', '6', 'f'] :=
    .coded (@EscapesUnits.cons _ _ _ _ 0 0 6 15 _ _ (by decide) (by decide) (by decide) (by decide)
      .nil)
  have hname : SpellsText "norm".toList "n\\u006frm".toList :=
    .cons hn (.cons ho (spellsText_of_isPlain (show ['r', 'm'].all isPlain = true by decide)))
  have hinner : Spells (.object [("norm", .number ['0'])]) "\x7b\"norm\":0\x7d".toList :=
    @Spells.object [.compact "norm" (.number ['0']) ['0']] (List.cons_ne_nil _ _)
      (List.forall_mem_singleton.2 (spellsText_of_isPlain (by decide)))
      (List.forall_mem_singleton.2 (.number (isNumeral_toDigits 0)))
  have hv : Document text v :=
    (@Spells.object [.compact "a" _ _, ⟨_, _, .none, .none, .compact _ _⟩] (List.cons_ne_nil _ _)
      (List.forall_mem_cons.2 ⟨spellsText_of_isPlain (by decide),
        List.forall_mem_singleton.2 hname⟩)
      (List.forall_mem_cons.2 ⟨hinner, List.forall_mem_singleton.2 htoken⟩)).document
  have hv' : Document text' v' := by
    let space : Blanks := ⟨[' '], List.forall_mem_singleton.2 rfl⟩
    exact ⟨⟨v', _, space, .none⟩, rfl, @Spells.list [⟨_, _, space, space⟩] (List.cons_ne_nil _ _)
      (List.forall_mem_singleton.2 htoken), by decide⟩
  have hsame : SameFields v v' :=
    ⟨_, _, .object _, .list (by decide), List.Perm.refl [("norm", Value.text "max_norm")]⟩
  have hrepresents : Represents v c := by
    have hfields : Represents v (ofMembers ⟨some (.ofName "max_norm"), none⟩) :=
      .object (.present ⟨_, rfl, rfl⟩) .absent
    exact hfields
  obtain ⟨hread, hagree⟩ := ofJson_document hv hv'
  have hok : ofJson text = .ok c := (hread c).2 hrepresents
  exact ⟨hv, hv', hsame, hrepresents, hok, (hagree hsame c).1 hok⟩

end Config

end Proximity

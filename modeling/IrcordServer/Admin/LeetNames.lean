import IrcordServer.Admin.Readings

/-!
# Leet spellings of reserved names

`is_reserved` drops the symbols of a nickname before it maps leet characters to letters, so a word
with a letter that is spelled with a symbol is lost; and it looks for a word behind a digit only
before that mapping.  So a leet spelling of a reserved name passes when every way to read a reserved
word from it needs a symbol, or a digit for a letter of a word behind a digit.
-/

namespace Ircord

namespace ReservedIdentity

deriving instance DecidableEq for PatternItem

/-! ## Single characters -/

/-- The facts about single characters, read off the 256 codes at once. -/
theorem leetChar_table : ∀ c : UInt8,
    (isLeetSymbol c = false → spelledBy c = (normalizeChar c).map leetChar) ∧
      (spelledBy c).map leetChar = spelledBy c ∧
      tolower (leetChar c) = leetChar (tolower c) ∧
      (¬ (c = 10 ∨ c = 13) → ¬ (leetChar c = 10 ∨ leetChar c = 13)) ∧
      (isDigit (leetChar c) = true ↔ c = ch '6') ∧
      (normalizeChar c = none ↔ spelledBy c = none ∨ isLeetSymbol c = true) ∧
      (isLetter c = true → leetChar c = c) :=
  forall_byte (by decide +kernel)

/-- The two mappings commute, symbols apart. -/
theorem spelledBy_eq_map {c : UInt8} (hc : isLeetSymbol c = false) :
    spelledBy c = (normalizeChar c).map leetChar := (leetChar_table c).1 hc

/-- What is left of a mapped character is not mapped again. -/
theorem map_leetChar_spelledBy (c : UInt8) : (spelledBy c).map leetChar = spelledBy c :=
  (leetChar_table c).2.1

theorem tolower_leetChar (c : UInt8) : tolower (leetChar c) = leetChar (tolower c) :=
  (leetChar_table c).2.2.1

/-- No character is mapped to a line break. -/
theorem leetChar_not_break {c : UInt8} (hc : ¬ (c = 10 ∨ c = 13)) :
    ¬ (leetChar c = 10 ∨ leetChar c = 13) := (leetChar_table c).2.2.2.1 hc

/-- Six is the only digit that stands for no letter. -/
theorem isDigit_leetChar (c : UInt8) : isDigit (leetChar c) = true ↔ c = ch '6' :=
  (leetChar_table c).2.2.2.2.1

/-- `normalize` drops what spells nothing, and the symbols. -/
theorem normalizeChar_eq_none (c : UInt8) :
    normalizeChar c = none ↔ spelledBy c = none ∨ isLeetSymbol c = true :=
  (leetChar_table c).2.2.2.2.2.1

theorem leetChar_of_isLetter {c : UInt8} (hc : isLetter c = true) : leetChar c = c :=
  (leetChar_table c).2.2.2.2.2.2 hc

theorem isDigit_of_not_isLetter {c l : UInt8} (hc : isLetter c = false)
    (h : normalizeChar c = some l) : isDigit l = true := by
  unfold isLetter at hc
  obtain ⟨hupper, hlower⟩ := Bool.or_eq_false_iff.1 hc
  unfold normalizeChar at h
  rw [hupper, hlower, Bool.false_or, if_neg Bool.false_ne_true] at h
  split_ifs at h with hdigit
  rwa [← Option.some.inj h]

/-- A digit that is spelled is a six. -/
theorem eq_six_of_spelledBy {c l : UInt8} (h : spelledBy c = some l) (hl : isDigit l = true) :
    l = ch '6' := by
  have hchar : leetChar c = l := (normalizeChar_eq_digit hl).1 h
  have hsix : c = ch '6' := (isDigit_leetChar c).1 (hchar ▸ hl)
  rw [← hchar, hsix]
  rfl

/-! ## Whole names -/

theorem normalize_normalizeLeet {s : Str} (hs : s.any isLeetSymbol = false) :
    normalize (normalizeLeet s) = normalizeLeet (normalize s) := by
  unfold normalize normalizeLeet
  rw [List.filterMap_map, List.map_filterMap]
  apply List.filterMap_congr
  intro c hc
  apply spelledBy_eq_map
  simpa using List.any_eq_false.1 hs c hc

theorem normalizeLeet_normalize_normalizeLeet (s : Str) :
    normalizeLeet (normalize (normalizeLeet s)) = normalize (normalizeLeet s) := by
  unfold normalize normalizeLeet
  rw [List.filterMap_map, List.map_filterMap]
  apply List.filterMap_congr
  intro c hc
  exact map_leetChar_spelledBy c

/-! ## Matching the mapped text -/

/-- The pattern with its characters mapped. -/
def PatternItem.leet : PatternItem → PatternItem
  | .char c => .char (leetChar c)
  | .anything => .anything

theorem map_mem_suffixes {s t : Str} (ht : t ∈ suffixes s) :
    normalizeLeet t ∈ suffixes (normalizeLeet s) := by
  induction s with
  | nil =>
    rw [suffixes, List.mem_singleton] at ht
    rw [ht]
    decide
  | cons c s ih =>
    rw [suffixes, List.mem_cons] at ht
    rw [normalizeLeet, List.map_cons, suffixes]
    rcases ht with rfl | ht
    · exact List.mem_cons_self
    · apply List.mem_cons_of_mem
      split_ifs at ht with hbreak
      · cases ht
      · rw [if_neg (leetChar_not_break hbreak)]
        exact ih ht

theorem regexMatch_leet {p : Pattern} {s : Str} (hmatch : regexMatch p s = true) :
    regexMatch (p.map PatternItem.leet) (normalizeLeet s) = true := by
  induction p generalizing s with
  | nil =>
    cases s with
    | nil => rfl
    | cons d s => cases hmatch
  | cons item p ih =>
    cases item with
    | char c =>
      cases s with
      | nil => cases hmatch
      | cons d s =>
        simp only [regexMatch, Bool.and_eq_true, beq_iff_eq] at hmatch
        simp only [List.map_cons, PatternItem.leet, normalizeLeet, regexMatch, Bool.and_eq_true,
          beq_iff_eq, tolower_leetChar]
        exact ⟨by rw [hmatch.1], ih hmatch.2⟩
    | anything =>
      obtain ⟨t, ht, hrest⟩ := List.any_eq_true.1 hmatch
      exact List.any_eq_true.2 ⟨normalizeLeet t, map_mem_suffixes ht, ih hrest⟩

/-- Every pattern is in the list with its characters mapped, too. -/
theorem leet_mem_patternReserved {p : Pattern} (hp : p ∈ patternReserved) :
    p.map PatternItem.leet ∈ patternReserved := by
  revert p
  decide +kernel

/-- No reserved word contains a leet character or a digit, and the one that is not in lower case has
a blank. -/
theorem exactReserved_facts : ∀ word ∈ exactReserved, normalizeLeet word = word ∧
    (lowercase word = word ∨ ch ' ' ∈ lowercase word) ∧
      ∀ c ∈ word, isDigit (tolower c) = false := by
  decide +kernel

/-- The mapping keeps reserved texts reserved. -/
theorem matchesReserved_normalizeLeet {text : Str} (hmatch : matchesReserved text = true) :
    matchesReserved (normalizeLeet text) = true := by
  unfold matchesReserved at hmatch ⊢
  rw [Bool.or_eq_true] at hmatch ⊢
  rcases hmatch with hexact | hpattern
  · left
    rw [List.contains_iff_mem] at hexact
    rw [(exactReserved_facts text hexact).1]
    exact List.contains_iff_mem.2 hexact
  · right
    obtain ⟨p, hp, hmatch⟩ := List.any_eq_true.1 hpattern
    exact List.any_eq_true.2 ⟨_, leet_mem_patternReserved hp, regexMatch_leet hmatch⟩

/-! ## Reserved words as patterns -/

def PatternItem.isDigit : PatternItem → Bool
  | .char c => Ircord.isDigit (tolower c)
  | .anything => false

/-- The pattern that only this word matches. -/
def Pattern.word (word : Str) : Pattern := word.map .char

/-- What `is_reserved` looks for behind a digit. -/
def reservedWords : List Pattern := admPattern :: exactReserved.map Pattern.word

/-- What `is_reserved` compares a text with. -/
def reservedPatterns : List Pattern := exactReserved.map Pattern.word ++ patternReserved

/-- A word of `exact_reserved_`, or a text that begins with `adm`. -/
def isReservedWord (word : Str) : Bool := exactReserved.contains word || regexMatch admPattern word

theorem isReserved_nil : isReservedWord [] = false ∧ matchesReserved [] = false := by
  decide +kernel

theorem regexMatch_word {word text : Str} :
    regexMatch (.word word) text = true ↔ lowercase word = lowercase text := by
  induction word generalizing text with
  | nil => cases text <;> simp [Pattern.word, regexMatch, lowercase]
  | cons a word ih =>
    cases text with
    | nil => simp [Pattern.word, regexMatch, lowercase]
    | cons c text =>
      unfold Pattern.word lowercase at ih ⊢
      rw [List.map_cons, regexMatch, Bool.and_eq_true, beq_iff_eq, ih, List.map_cons,
        List.map_cons, List.cons_eq_cons]

section Normal

variable {text : Str} (htext : ∀ c ∈ text, isNormal c = true)

include htext

theorem lowercase_of_normal : lowercase text = text := by
  unfold lowercase
  rw [List.map_congr_left fun c hc => (isNormal_facts (htext c hc)).1, List.map_id']

/-- One of the words has a blank, and no text that `normalize` leaves does. -/
theorem regexMatch_word_iff {word : Str} (hword : word ∈ exactReserved) :
    regexMatch (.word word) text = true ↔ word = text := by
  rw [regexMatch_word, lowercase_of_normal htext]
  constructor
  · intro h
    rcases (exactReserved_facts word hword).2.1 with hlower | hblank
    · exact hlower.symm.trans h
    · rw [h] at hblank
      exact absurd rfl (isNormal_facts (htext _ hblank)).2.2
  · rintro rfl
    exact lowercase_of_normal htext

theorem contains_iff_word : exactReserved.contains text = true ↔
    ∃ p ∈ exactReserved.map Pattern.word, regexMatch p text = true := by
  rw [List.contains_iff_mem]
  constructor
  · intro hmem
    exact ⟨_, List.mem_map_of_mem hmem, (regexMatch_word_iff htext hmem).2 rfl⟩
  · rintro ⟨p, hp, hmatch⟩
    obtain ⟨word, hword, rfl⟩ := List.mem_map.1 hp
    rwa [← (regexMatch_word_iff htext hword).1 hmatch]

theorem matchesReserved_iff : matchesReserved text = true ↔
    ∃ p ∈ reservedPatterns, regexMatch p text = true := by
  unfold matchesReserved reservedPatterns
  rw [Bool.or_eq_true, contains_iff_word htext, List.any_eq_true]
  simp only [List.mem_append, or_and_right, exists_or]

theorem isReservedWord_iff : isReservedWord text = true ↔
    ∃ p ∈ reservedWords, regexMatch p text = true := by
  unfold isReservedWord reservedWords
  rw [Bool.or_eq_true, contains_iff_word htext]
  simp only [List.mem_cons, exists_eq_or_imp]
  exact or_comm

end Normal

/-! ## The texts and the readings that they show -/

/-- The name with its leet characters mapped, symbols and digits. -/
theorem shows_leet : Shows spelledBy (fun _ => True) fun _ => False where
  none_iff c := by simp
  keeps c _ := rfl
  normal _ _ := isNormal_of_normalizeChar

/-- The name with its symbols dropped and its digits mapped. -/
theorem shows_mapped : Shows (fun c => (normalizeChar c).map leetChar)
    (fun c => isLeetSymbol c = false) fun _ => True where
  none_iff c := by
    rw [Option.map_eq_none_iff, normalizeChar_eq_none, and_true]
  keeps c hc := (spelledBy_eq_map hc).symm
  normal c l h := by
    cases hsymbol : isLeetSymbol c with
    | true =>
      rw [(normalizeChar_eq_none c).2 (Or.inr hsymbol)] at h
      cases h
    | false =>
      rw [← spelledBy_eq_map hsymbol] at h
      exact isNormal_of_normalizeChar h

/-- The name with its symbols dropped. -/
theorem shows_plain : Shows normalizeChar (fun c => isLetter c = true) fun _ => True where
  none_iff c := by
    rw [normalizeChar_eq_none, and_true]
  keeps c hc := by
    unfold spelledBy
    rw [leetChar_of_isLetter hc]
  normal _ _ := isNormal_of_normalizeChar

section Texts

variable {s : Str}

theorem normalize_eq : normalize s = s.filterMap normalizeChar := rfl

theorem normalize_normalizeLeet_eq : normalize (normalizeLeet s) = s.filterMap spelledBy := by
  unfold normalize normalizeLeet
  rw [List.filterMap_map]
  rfl

theorem normalizeLeet_normalize_eq :
    normalizeLeet (normalize s) = s.filterMap fun c => (normalizeChar c).map leetChar := by
  unfold normalize normalizeLeet
  rw [List.map_filterMap]
  rfl

theorem Shows.forall_normal {keep : UInt8 → Option UInt8} {use out : UInt8 → Prop}
    (h : Shows keep use out) : ∀ l ∈ s.filterMap keep, isNormal l = true := by
  intro l hl
  obtain ⟨c, -, hc⟩ := List.mem_filterMap.1 hl
  exact h.normal c l hc

/-- A match of the name with every leet character mapped is a reading that leaves out nothing. -/
theorem regexMatch_leet_iff {p : Pattern} :
    regexMatch p (s.filterMap spelledBy) = true ↔ ∃ used, Reading p s used [] := by
  have hp : ∀ item ∈ p, Usable spelledBy (fun _ => True) item := by
    rintro (a | _) - <;> simp [Usable]
  rw [regexMatch_iff_reading shows_leet hp]
  constructor
  · rintro ⟨used, left, hreading, -, hleft⟩
    rw [List.eq_nil_iff_forall_not_mem.2 hleft] at hreading
    exact ⟨used, hreading⟩
  · rintro ⟨used, hreading⟩
    exact ⟨used, [], hreading, fun _ _ => trivial, List.forall_mem_nil _⟩

theorem matchesReserved_leet_iff : matchesReserved (normalize (normalizeLeet s)) = true ↔
    ∃ p ∈ reservedPatterns, ∃ used, Reading p s used [] := by
  rw [normalize_normalizeLeet_eq, matchesReserved_iff shows_leet.forall_normal]
  simp only [regexMatch_leet_iff]

theorem matchesReserved_mapped_iff : matchesReserved (normalizeLeet (normalize s)) = true ↔
    ∃ p ∈ reservedPatterns, ∃ used left, Reading p s used left ∧
      ∀ c ∈ used, isLeetSymbol c = false := by
  have husable (item : PatternItem) : Usable (fun c => (normalizeChar c).map leetChar)
      (fun c => isLeetSymbol c = false) item := by
    cases item with
    | char a =>
      intro c l hc _
      rw [Bool.eq_false_iff]
      intro hsymbol
      dsimp only at hc
      rw [(normalizeChar_eq_none c).2 (Or.inr hsymbol)] at hc
      cases hc
    | anything => trivial
  rw [normalizeLeet_normalize_eq, matchesReserved_iff shows_mapped.forall_normal]
  simp only [regexMatch_iff_reading shows_mapped fun item _ => husable item, implies_true,
    and_true]

theorem isReservedWord_plain_iff : isReservedWord (normalize s) = true ↔
    ∃ p ∈ reservedWords, ∃ used left, Reading p s used left ∧ ∀ c ∈ used, isLetter c = true := by
  have hwords : ∀ p ∈ reservedWords, ∀ item ∈ p, item.isDigit = false := by
    refine List.forall_mem_cons.2 ⟨by decide, fun p hp item hitem => ?_⟩
    obtain ⟨word, hword, rfl⟩ := List.mem_map.1 hp
    obtain ⟨c, hc, rfl⟩ := List.mem_map.1 hitem
    exact (exactReserved_facts word hword).2.2 c hc
  have husable {item : PatternItem} (hitem : item.isDigit = false) :
      Usable normalizeChar (fun c => isLetter c = true) item := by
    cases item with
    | char a =>
      intro c l hc ha
      rw [← Bool.not_eq_false]
      intro hletter
      have hdigit := isDigit_of_not_isLetter hletter hc
      rw [← (isNormal_facts (isNormal_of_normalizeChar hc)).1, ← ha] at hdigit
      exact Bool.false_ne_true (hitem.symm.trans hdigit)
    | anything => trivial
  rw [normalize_eq, isReservedWord_iff shows_plain.forall_normal]
  refine exists_congr fun p => and_congr_right fun hp => ?_
  simp only [regexMatch_iff_reading shows_plain fun item hitem => husable (hwords p hp item hitem),
    implies_true, and_true]

theorem hasDigitPrefix_cons (c : UInt8) (word : Str) :
    hasDigitPrefix (c :: word) = (isDigit c && isReservedWord word) := by
  cases word with
  | nil =>
    rw [isReserved_nil.1, Bool.and_false]
    rfl
  | cons d word => rfl

/-- A digit that is left by the mapping is a six. -/
theorem hasDigitPrefix_leet_iff : hasDigitPrefix (normalize (normalizeLeet s)) = true ↔
    ∃ p ∈ reservedWords, ∃ used, Reading (.char (ch '6') :: p) s used [] := by
  simp only [← regexMatch_leet_iff]
  rw [normalize_normalizeLeet_eq]
  have hnormal := @Shows.forall_normal s _ _ _ shows_leet
  have hdigits : ∀ c ∈ s.filterMap spelledBy, isDigit c = true → c = ch '6' := by
    intro l hl hdigit
    obtain ⟨c, -, hc⟩ := List.mem_filterMap.1 hl
    exact eq_six_of_spelledBy hc hdigit
  cases htext : s.filterMap spelledBy with
  | nil => simp [hasDigitPrefix, regexMatch]
  | cons c word =>
    rw [htext] at hnormal hdigits
    obtain ⟨hc, hword⟩ := List.forall_mem_cons.1 hnormal
    have hfirst : isDigit c = true ↔ tolower (ch '6') = tolower c := by
      rw [(isNormal_facts hc).1]
      exact ⟨fun hdigit => (hdigits c List.mem_cons_self hdigit).symm, fun h => h ▸ rfl⟩
    rw [hasDigitPrefix_cons, Bool.and_eq_true, isReservedWord_iff hword, hfirst]
    simp only [regexMatch, Bool.and_eq_true, beq_iff_eq]
    tauto

/-- The digit is the first character of the name that `normalize` keeps. -/
theorem hasDigitPrefix_plain_iff : hasDigitPrefix (normalize s) = true ↔
    ∃ before digit rest, s = before ++ digit :: rest ∧ (∀ c ∈ before, normalizeChar c = none) ∧
      isDigit digit = true ∧ isReservedWord (normalize rest) = true := by
  constructor
  · intro h
    cases htext : normalize s with
    | nil =>
      rw [htext] at h
      cases h
    | cons c word =>
      rw [htext, hasDigitPrefix_cons, Bool.and_eq_true] at h
      rw [normalize_eq] at htext
      obtain ⟨before, digit, rest, hs, hbefore, hdigit, hrest⟩ := List.filterMap_eq_cons_iff.1 htext
      have hsame : digit = c := (normalizeChar_eq_digit h.1).1 hdigit
      refine ⟨before, digit, rest, hs, hbefore, hsame ▸ h.1, ?_⟩
      rw [normalize_eq, hrest]
      exact h.2
  · rintro ⟨before, digit, rest, hs, hbefore, hdigit, hword⟩
    have htext : normalize s = digit :: normalize rest :=
      List.filterMap_eq_cons_iff.2 ⟨before, digit, rest, hs, hbefore,
        (normalizeChar_eq_digit hdigit).2 rfl, rfl⟩
    rw [htext, hasDigitPrefix_cons, hdigit, hword]
    rfl

end Texts

/-! ## Which leet spellings pass -/

/-- The decision in terms of the name without its symbols. -/
theorem isReserved_iff (s : Str) : isReserved [] s = true ↔
    matchesReserved (normalizeLeet (normalize s)) = true ∨
      hasDigitPrefix (normalize s) = true := by
  cases s with
  | nil =>
    simp [isReserved, normalize, normalizeLeet, hasDigitPrefix, isReserved_nil.2]
  | cons c s =>
    have hleet := @matchesReserved_normalizeLeet (normalize (c :: s))
    by_cases hsame : normalizeLeet (normalize (c :: s)) = normalize (c :: s)
    · simp [isReserved, hsame]
    · simp only [isReserved]
      simp [hsame]
      tauto

/-- The decision about the mapped name, whose characters are not mapped again. -/
theorem isReserved_normalizeLeet (s : Str) : isReserved [] (normalizeLeet s) = true ↔
    matchesReserved (normalize (normalizeLeet s)) = true ∨
      hasDigitPrefix (normalize (normalizeLeet s)) = true := by
  rw [isReserved_iff, normalizeLeet_normalize_normalizeLeet]

/-- The name spells a reserved word or pattern, or a six and a word behind it, but with a symbol for
one of its letters, and there is no other way to read one: whichever symbols are left out, a symbol
is needed for a letter.  For a word behind a digit a symbol or a digit is needed. -/
structure Hides (s : Str) : Prop where
  spells : (∃ p ∈ reservedPatterns, ∃ used, Reading p s used []) ∨
    ∃ p ∈ reservedWords, ∃ used, Reading (.char (ch '6') :: p) s used []
  needsSymbol : ∀ p ∈ reservedPatterns, ∀ used left, Reading p s used left →
    ∃ c ∈ used, isLeetSymbol c = true
  needsOther : ∀ before digit rest, s = before ++ digit :: rest →
    (∀ c ∈ before, normalizeChar c = none) → isDigit digit = true →
      ∀ p ∈ reservedWords, ∀ used left, Reading p rest used left → ∃ c ∈ used, isLetter c = false

section Hides

variable {s : Str}

/-- A name without symbols is mapped as a whole, so it hides nothing but a word behind a six. -/
theorem Hides.symbol_or_six (hides : Hides s) :
    s.any isLeetSymbol = true ∨ (normalize s).head? = some (ch '6') := by
  cases hsymbols : s.any isLeetSymbol with
  | true => exact Or.inl rfl
  | false =>
    refine Or.inr ?_
    rcases hides.spells with ⟨p, hp, used, hreading⟩ | ⟨p, -, used, hreading⟩
    · obtain ⟨c, hc, hsymbol⟩ := hides.needsSymbol p hp used [] hreading
      exact absurd hsymbol (List.any_eq_false.1 hsymbols c (hreading.used_subset hc))
    · have hmatch := regexMatch_leet_iff.2 ⟨used, hreading⟩
      have hnormal := @Shows.forall_normal s _ _ _ shows_leet
      rw [← normalize_normalizeLeet_eq, normalize_normalizeLeet hsymbols] at hmatch hnormal
      cases htext : normalize s with
      | nil =>
        rw [htext] at hmatch
        cases hmatch
      | cons c word =>
        rw [htext, normalizeLeet, List.map_cons] at hmatch hnormal
        have hlower := (isNormal_facts (hnormal _ List.mem_cons_self)).1
        rw [regexMatch, Bool.and_eq_true, beq_iff_eq, hlower] at hmatch
        have hsix : c = ch '6' := (isDigit_leetChar c).1 (hmatch.1 ▸ by decide)
        rw [List.head?_cons, hsix]

theorem isReserved_closed_iff :
    (isReserved [] (normalizeLeet s) = true → isReserved [] s = true) ↔ ¬ Hides s := by
  rw [isReserved_normalizeLeet, isReserved_iff, matchesReserved_leet_iff, hasDigitPrefix_leet_iff,
    matchesReserved_mapped_iff, hasDigitPrefix_plain_iff]
  simp only [isReservedWord_plain_iff]
  constructor
  · intro hclosed hides
    rcases hclosed hides.spells with ⟨p, hp, used, left, hreading, hused⟩ |
      ⟨before, digit, rest, hs, hbefore, hdigit, p, hp, used, left, hreading, hused⟩
    · obtain ⟨c, hc, hsymbol⟩ := hides.needsSymbol p hp used left hreading
      exact Bool.false_ne_true ((hused c hc).symm.trans hsymbol)
    · obtain ⟨c, hc, hother⟩ :=
        hides.needsOther before digit rest hs hbefore hdigit p hp used left hreading
      exact Bool.false_ne_true (hother.symm.trans (hused c hc))
  · intro hnot hspells
    by_contra hmissed
    rw [not_or] at hmissed
    refine hnot ⟨hspells, fun p hp used left hreading => ?_, ?_⟩
    · by_contra hnone
      refine hmissed.1 ⟨p, hp, used, left, hreading, fun c hc => ?_⟩
      exact Bool.eq_false_iff.2 fun hsymbol => hnone ⟨c, hc, hsymbol⟩
    · intro before digit rest hs hbefore hdigit p hp used left hreading
      by_contra hnone
      refine hmissed.2 ⟨before, digit, rest, hs, hbefore, hdigit, p, hp, used, left, hreading,
        fun c hc => ?_⟩
      rw [← Bool.not_eq_false]
      exact fun hother => hnone ⟨c, hc, hother⟩

end Hides

/-- The leet spelling of a reserved name is reserved exactly when one of the words to be read from
it needs no symbol, nor, behind a digit, any other digit.  Only names with a symbol, or with a six
before everything else, hide one. -/
theorem isReserved_of_leet_iff (s : Str) :
    ((isReserved [] (normalizeLeet s) = true → isReserved [] s = true) ↔ ¬ Hides s) ∧
      (Hides s → s.any isLeetSymbol = true ∨ (normalize s).head? = some (ch '6')) :=
  ⟨isReserved_closed_iff, Hides.symbol_or_six⟩

/-- `@dmin` is not reserved: the `@` is dropped before it could become an `a`. -/
theorem not_isReserved_at_dmin :
    ¬ ∀ s, isReserved [] (normalizeLeet s) = true → isReserved [] s = true := by
  intro hclosed
  exact absurd (hclosed (str "@dmin") (by decide +kernel)) (by decide +kernel)

end ReservedIdentity

end Ircord

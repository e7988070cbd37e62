import Mathlib.Data.List.Basic
import IrcordServer.Admin.ReservedIdentity

/-!
# Readings of a nickname

How the characters of a name spell a reserved word: some stand for its letters, as they are or as
leet characters, others stand in between.  The texts that `is_reserved` looks at are what is left of
the name when some of its characters are dropped, and each of them shows some of the readings.
-/

namespace Ircord

namespace ReservedIdentity

/-! ## Single characters -/

/-- What `normalize` keeps of a character. -/
def normalizeChar (c : UInt8) : Option UInt8 :=
  if isUpper c then some (c + 32) else if isLower c || isDigit c then some c else none

/-- The symbols that `normalize_leet` maps to letters, and that `normalize` drops. -/
def isLeetSymbol (c : UInt8) : Bool :=
  c == ch '@' || c == ch '!' || c == ch '|' || c == ch '$' || c == ch '+' || c == ch '(' ||
    c == ch ')'

/-- The letter or digit that a character stands for, read as leet. -/
def spelledBy (c : UInt8) : Option UInt8 := normalizeChar (leetChar c)

def isLetter (c : UInt8) : Bool := isUpper c || isLower c

/-- A character that `normalize` can leave in a text. -/
def isNormal (c : UInt8) : Bool := isLower c || isDigit c

/-- Normal characters are in lower case, and no blanks or line breaks. -/
theorem isNormal_facts {c : UInt8} (h : isNormal c = true) :
    tolower c = c ∧ ¬ (c = 10 ∨ c = 13) ∧ c ≠ ch ' ' := by
  have hrange : 97 ≤ c.toNat ∧ c.toNat ≤ 122 ∨ 48 ≤ c.toNat ∧ c.toNat ≤ 57 := by
    simpa [isNormal, isLower, isDigit, UInt8.le_iff_toNat_le] using h
  have hupper : isUpper c = false := by
    simp only [isUpper, Bool.and_eq_false_iff, decide_eq_false_iff_not, UInt8.le_iff_toNat_le,
      UInt8.reduceToNat]
    omega
  refine ⟨by rw [tolower, hupper]; rfl, ?_, ?_⟩
  · rintro (rfl | rfl) <;> revert hrange <;> decide
  · rintro rfl
    revert hrange
    decide

theorem toNat_lower_of_isUpper {c : UInt8} (h : isUpper c = true) :
    97 ≤ (c + 32).toNat ∧ (c + 32).toNat ≤ 122 := by
  have hrange : 65 ≤ c.toNat ∧ c.toNat ≤ 90 := by
    simpa [isUpper, UInt8.le_iff_toNat_le] using h
  have hsum : (c + 32).toNat = (c.toNat + 32) % 256 := UInt8.toNat_add c 32
  omega

theorem isNormal_of_normalizeChar {c l : UInt8} (h : normalizeChar c = some l) :
    isNormal l = true := by
  unfold normalizeChar at h
  split_ifs at h with hupper hkept
  · cases h
    have hrange := toNat_lower_of_isUpper hupper
    simp only [isNormal, isLower, Bool.or_eq_true, Bool.and_eq_true, decide_eq_true_eq,
      UInt8.le_iff_toNat_le]
    exact Or.inl hrange
  · cases h
    exact hkept

/-- A digit is kept as it is, and nothing else becomes a digit. -/
theorem normalizeChar_eq_digit {c l : UInt8} (hl : isDigit l = true) :
    normalizeChar c = some l ↔ c = l := by
  have hdigit : 48 ≤ l.toNat ∧ l.toNat ≤ 57 := by
    simpa [isDigit, UInt8.le_iff_toNat_le] using hl
  constructor
  · intro h
    unfold normalizeChar at h
    split_ifs at h with hupper hkept
    · have hrange := toNat_lower_of_isUpper hupper
      cases h
      omega
    · exact Option.some.inj h
  · rintro rfl
    have hupper : ¬ isUpper c = true := by
      simp only [isUpper, Bool.and_eq_true, decide_eq_true_eq, UInt8.le_iff_toNat_le]
      exact fun h => absurd (Nat.le_trans h.1 hdigit.2) (by decide)
    unfold normalizeChar
    rw [if_neg hupper, hl, Bool.or_true, if_pos rfl]

/-! ## Readings -/

/-- How the characters of a name spell a pattern: `used` are those that stand for its letters, and
`left` are symbols that are left out.  The others are taken by `.*`, or spell nothing. -/
inductive Reading : Pattern → Str → Str → Str → Prop
  | nil : Reading [] [] [] []
  | skip {p : Pattern} {s used left : Str} {c : UInt8} (hc : spelledBy c = none)
    (hrest : Reading p s used left) : Reading p (c :: s) used left
  | leave {p : Pattern} {s used left : Str} {c : UInt8} (hc : isLeetSymbol c = true)
    (hrest : Reading p s used left) : Reading p (c :: s) used (c :: left)
  | letter {p : Pattern} {s used left : Str} {a c l : UInt8} (hc : spelledBy c = some l)
    (ha : tolower a = tolower l) (hrest : Reading p s used left) :
    Reading (.char a :: p) (c :: s) (c :: used) left
  | take {p : Pattern} {s used left : Str} {c : UInt8} (hc : spelledBy c ≠ none)
    (hrest : Reading (.anything :: p) s used left) : Reading (.anything :: p) (c :: s) used left
  | stop {p : Pattern} {s used left : Str} (hrest : Reading p s used left) :
    Reading (.anything :: p) s used left

theorem Reading.used_subset {p : Pattern} {s used left : Str} (h : Reading p s used left) :
    used ⊆ s := by
  induction h with
  | nil => exact List.Subset.refl []
  | skip _ _ ih | leave _ _ ih | take _ _ ih => exact List.subset_cons_of_subset _ ih
  | letter _ _ _ ih => exact List.cons_subset_cons _ ih
  | stop _ ih => exact ih

/-- The text that `keep` leaves of a name shows the readings that use only characters in `use` and
leave out only symbols in `out`. -/
structure Shows (keep : UInt8 → Option UInt8) (use out : UInt8 → Prop) : Prop where
  none_iff : ∀ c, keep c = none ↔ spelledBy c = none ∨ isLeetSymbol c = true ∧ out c
  keeps : ∀ c, use c → keep c = spelledBy c
  normal : ∀ c l, keep c = some l → isNormal l = true

/-- A character that is kept as this letter can be used for it. -/
def Usable (keep : UInt8 → Option UInt8) (use : UInt8 → Prop) : PatternItem → Prop
  | .char a => ∀ c l, keep c = some l → tolower a = tolower l → use c
  | .anything => True

theorem self_mem_suffixes (s : Str) : s ∈ suffixes s := by
  cases s with
  | nil => exact List.mem_singleton_self []
  | cons c s => exact List.mem_cons_self

section Shows

variable {keep : UInt8 → Option UInt8} {use out : UInt8 → Prop} {p : Pattern} {s used left : Str}

/-- A reading is a match of the text that shows it. -/
theorem regexMatch_of_reading (h : Shows keep use out) (hreading : Reading p s used left)
    (hused : ∀ c ∈ used, use c) (hleft : ∀ c ∈ left, out c) :
    regexMatch p (s.filterMap keep) = true := by
  induction hreading with
  | nil => rfl
  | skip hc _ ih =>
    rw [List.filterMap_cons_none ((h.none_iff _).2 (Or.inl hc))]
    exact ih hused hleft
  | leave hc _ ih =>
    obtain ⟨hout, hleft⟩ := List.forall_mem_cons.1 hleft
    rw [List.filterMap_cons_none ((h.none_iff _).2 (Or.inr ⟨hc, hout⟩))]
    exact ih hused hleft
  | @letter _ _ _ _ _ c _ hc ha _ ih =>
    obtain ⟨huse, hused⟩ := List.forall_mem_cons.1 hused
    rw [List.filterMap_cons_some ((h.keeps c huse).trans hc), regexMatch, ha, beq_self_eq_true,
      Bool.true_and]
    exact ih hused hleft
  | @take _ _ _ _ c _ _ ih =>
    cases hkeep : keep c with
    | none =>
      rw [List.filterMap_cons_none hkeep]
      exact ih hused hleft
    | some l =>
      have hbreak := (isNormal_facts (h.normal c l hkeep)).2.1
      rw [List.filterMap_cons_some hkeep, regexMatch, suffixes, if_neg hbreak, List.any_cons,
        Bool.or_eq_true]
      exact Or.inr (ih hused hleft)
  | stop _ ih =>
    rw [regexMatch, List.any_eq_true]
    exact ⟨_, self_mem_suffixes _, ih hused hleft⟩

/-- Each match is a reading: by induction on the name, and on the pattern where `.*` takes
nothing more. -/
theorem exists_reading (h : Shows keep use out) (hp : ∀ item ∈ p, Usable keep use item)
    (hmatch : regexMatch p (s.filterMap keep) = true) :
    ∃ used left, Reading p s used left ∧ (∀ c ∈ used, use c) ∧ ∀ c ∈ left, out c := by
  induction s generalizing p with
  | nil =>
    induction p with
    | nil => exact ⟨[], [], .nil, List.forall_mem_nil _, List.forall_mem_nil _⟩
    | cons item p ih =>
      cases item with
      | char a => cases hmatch
      | anything =>
        have hrest : regexMatch p ([] : Str) = true := by
          simpa [regexMatch, suffixes] using hmatch
        obtain ⟨used, left, hreading, hall⟩ := ih (List.forall_mem_cons.1 hp).2 hrest
        exact ⟨used, left, .stop hreading, hall⟩
  | cons c s ihs =>
    cases hkeep : keep c with
    | none =>
      rw [List.filterMap_cons_none hkeep] at hmatch
      obtain ⟨used, left, hreading, hused, hleft⟩ := ihs hp hmatch
      rcases (h.none_iff c).1 hkeep with hc | ⟨hc, hout⟩
      · exact ⟨used, left, .skip hc hreading, hused, hleft⟩
      · exact ⟨used, c :: left, .leave hc hreading, hused, List.forall_mem_cons.2 ⟨hout, hleft⟩⟩
    | some l =>
      rw [List.filterMap_cons_some hkeep] at hmatch
      have hbreak := (isNormal_facts (h.normal c l hkeep)).2.1
      induction p with
      | nil => cases hmatch
      | cons item p ihp =>
        have hrest := (List.forall_mem_cons.1 hp).2
        cases item with
        | char a =>
          simp only [regexMatch, Bool.and_eq_true, beq_iff_eq] at hmatch
          obtain ⟨ha, hmatch⟩ := hmatch
          have huse : use c := (List.forall_mem_cons.1 hp).1 c l hkeep ha
          have hspelled : spelledBy c = some l := (h.keeps c huse).symm.trans hkeep
          obtain ⟨used, left, hreading, hused, hleft⟩ := ihs hrest hmatch
          exact ⟨c :: used, left, .letter hspelled ha hreading,
            List.forall_mem_cons.2 ⟨huse, hused⟩, hleft⟩
        | anything =>
          have hspelled : spelledBy c ≠ none := fun hnone => by
            rw [(h.none_iff c).2 (Or.inl hnone)] at hkeep
            cases hkeep
          rw [regexMatch, suffixes, if_neg hbreak, List.any_cons, Bool.or_eq_true] at hmatch
          rcases hmatch with hmatch | hmatch
          · obtain ⟨used, left, hreading, hall⟩ := ihp hrest hmatch
            exact ⟨used, left, .stop hreading, hall⟩
          · obtain ⟨used, left, hreading, hall⟩ := ihs hp hmatch
            exact ⟨used, left, .take hspelled hreading, hall⟩

theorem regexMatch_iff_reading (h : Shows keep use out) (hp : ∀ item ∈ p, Usable keep use item) :
    regexMatch p (s.filterMap keep) = true ↔
      ∃ used left, Reading p s used left ∧ (∀ c ∈ used, use c) ∧ ∀ c ∈ left, out c :=
  ⟨exists_reading h hp, fun ⟨_, _, hreading, hused, hleft⟩ =>
    regexMatch_of_reading h hreading hused hleft⟩

end Shows

end ReservedIdentity

end Ircord

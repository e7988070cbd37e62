import Mathlib.Data.List.Basic
import IrcordServer.Names

/-!
# What `sanitize_channel_name` makes of a string

The loop drops what is neither a channel prefix nor a valid channel character, and puts `#` where it
meets the first prefix.  So the result begins with `#` unless valid characters come before the first
prefix: `general!` becomes `general#`.
-/

namespace Ircord

/-! ## The classes of characters -/

/-- White space, prefixes and valid characters are three classes of their own. -/
theorem channelClasses (c : UInt8) :
    (isValidChannelChar c = true → isChannelPrefix c = false ∧ isSpace c = false) ∧
      (isChannelPrefix c = true → isSpace c = false) :=
  forall_byte (P := fun c =>
    (isValidChannelChar c = true → isChannelPrefix c = false ∧ isSpace c = false) ∧
      (isChannelPrefix c = true → isSpace c = false)) (by decide +kernel) c

theorem isChannelPrefix_of_isValidChannelChar {c : UInt8} (hvalid : isValidChannelChar c = true) :
    isChannelPrefix c = false := ((channelClasses c).1 hvalid).1

theorem isSpace_of_isValidChannelChar {c : UInt8} (hvalid : isValidChannelChar c = true) :
    isSpace c = false := ((channelClasses c).1 hvalid).2

theorem isSpace_of_isChannelPrefix {c : UInt8} (hmark : isChannelPrefix c = true) :
    isSpace c = false := (channelClasses c).2 hmark

theorem isChannelPrefix_hash : isChannelPrefix (ch '#') = true := by decide

/-- The valid channel characters of a string, in order. -/
def channelChars (s : Str) : Str := s.filter isValidChannelChar

theorem isValidChannelChar_of_mem_channelChars {s : Str} {c : UInt8} (hc : c ∈ channelChars s) :
    isValidChannelChar c = true := (List.mem_filter.1 hc).2

theorem channelChars_of_all {s : Str} (hs : ∀ c ∈ s, isValidChannelChar c = true) :
    channelChars s = s := List.filter_eq_self.2 hs

@[simp] theorem channelChars_channelChars (s : Str) :
    channelChars (channelChars s) = channelChars s :=
  channelChars_of_all fun _ => isValidChannelChar_of_mem_channelChars

theorem channelChars_cons (c : UInt8) (s : Str) :
    channelChars (c :: s) = if isValidChannelChar c then c :: channelChars s else channelChars s :=
  List.filter_cons

/-! ## The loop -/

/-- Behind the first prefix the loop keeps the valid characters. -/
theorem foldl_sanitizeStep_of_hasPrefix (s r : Str) :
    s.foldl sanitizeStep ⟨r, true, true⟩ = ⟨r ++ channelChars s, true, true⟩ := by
  induction s generalizing r with
  | nil => simp [channelChars]
  | cons c s ih =>
    have hstep : sanitizeStep ⟨r, true, true⟩ c =
        ⟨if isValidChannelChar c then r ++ [c] else r, true, true⟩ := by
      by_cases hmark : isChannelPrefix c = true
      · have hvalid : isValidChannelChar c = false := by
          apply Bool.eq_false_iff.2
          intro hvalid
          rw [isChannelPrefix_of_isValidChannelChar hvalid] at hmark
          cases hmark
        simp [sanitizeStep, hmark, hvalid]
      · by_cases hvalid : isValidChannelChar c = true <;> simp [sanitizeStep, hmark, hvalid]
    rw [List.foldl_cons, hstep, ih, channelChars_cons]
    split_ifs <;> simp

/-- In front of the first prefix it does too. -/
theorem foldl_sanitizeStep_of_noPrefix {s : Str} (hs : ∀ c ∈ s, isChannelPrefix c = false) (r : Str)
    (added : Bool) :
    ∃ added', s.foldl sanitizeStep ⟨r, false, added⟩ = ⟨r ++ channelChars s, false, added'⟩ := by
  induction s generalizing r added with
  | nil => exact ⟨added, by simp [channelChars]⟩
  | cons c s ih =>
    have hc : isChannelPrefix c = false := hs c List.mem_cons_self
    have hrest := ih fun d hd => hs d (List.mem_cons_of_mem c hd)
    have hstep : ∃ added', sanitizeStep ⟨r, false, added⟩ c =
        ⟨if isValidChannelChar c then r ++ [c] else r, false, added'⟩ := by
      by_cases hvalid : isValidChannelChar c = true
      · have hspace := isSpace_of_isValidChannelChar hvalid
        exact ⟨true, by simp [sanitizeStep, hc, hvalid, hspace]⟩
      · unfold sanitizeStep
        dsimp only
        split_ifs
        all_goals simp_all
    obtain ⟨added', hstep⟩ := hstep
    obtain ⟨added'', hfold⟩ := hrest (if isValidChannelChar c then r ++ [c] else r) added'
    refine ⟨added'', ?_⟩
    rw [List.foldl_cons, hstep, hfold, channelChars_cons]
    split_ifs <;> simp

/-- A name without a prefix gets one. -/
theorem sanitizeChannelName_of_noPrefix {s : Str} (hs : ∀ c ∈ s, isChannelPrefix c = false) :
    sanitizeChannelName s = ch '#' :: channelChars s := by
  obtain ⟨added, hfold⟩ := foldl_sanitizeStep_of_noPrefix hs [] false
  cases s with
  | nil => decide
  | cons c s =>
    unfold sanitizeChannelName
    rw [hfold]
    rfl

/-- The first prefix of a name becomes `#` where it stands. -/
theorem sanitizeChannelName_append_cons {lead : Str} (hlead : ∀ d ∈ lead, isChannelPrefix d = false)
    {c : UInt8} (hc : isChannelPrefix c = true) (rest : Str) :
    sanitizeChannelName (lead ++ c :: rest) = channelChars lead ++ ch '#' :: channelChars rest := by
  obtain ⟨added, hfold⟩ := foldl_sanitizeStep_of_noPrefix hlead [] false
  have hstep : sanitizeStep ⟨channelChars lead, false, added⟩ c =
      ⟨channelChars lead ++ [ch '#'], true, true⟩ := by
    simp [sanitizeStep, isSpace_of_isChannelPrefix hc, hc]
  unfold sanitizeChannelName
  rw [if_neg (by simp), List.foldl_append, hfold, List.nil_append, List.foldl_cons, hstep,
    foldl_sanitizeStep_of_hasPrefix]
  simp

/-- A string has no channel prefix, or a first one. -/
theorem channelPrefix_cases (s : Str) :
    (∀ c ∈ s, isChannelPrefix c = false) ∨
      ∃ lead c rest, s = lead ++ c :: rest ∧ (∀ d ∈ lead, isChannelPrefix d = false) ∧
        isChannelPrefix c = true := by
  induction s with
  | nil => exact Or.inl (by simp)
  | cons a s ih =>
    by_cases ha : isChannelPrefix a = true
    · exact Or.inr ⟨[], a, s, rfl, by simp, ha⟩
    rw [Bool.not_eq_true] at ha
    rcases ih with hnone | ⟨lead, c, rest, rfl, hlead, hc⟩
    · exact Or.inl (by simpa [ha] using hnone)
    · exact Or.inr ⟨a :: lead, c, rest, rfl, by simpa [ha] using hlead, hc⟩

/-! ## The result -/

/-- The name has no channel prefix, or nothing valid in front of the first one. -/
def prefixLeads (s : Str) : Bool :=
  !s.any isChannelPrefix ||
    (s.takeWhile fun c => !isChannelPrefix c).all fun c => !isValidChannelChar c

theorem prefixLeads_of_noPrefix {s : Str} (hs : ∀ c ∈ s, isChannelPrefix c = false) :
    prefixLeads s = true := by
  have hany : s.any isChannelPrefix = false := List.any_eq_false.2 (by simpa using hs)
  simp [prefixLeads, hany]

theorem prefixLeads_append_cons {lead : Str} (hlead : ∀ d ∈ lead, isChannelPrefix d = false)
    {c : UInt8} (hc : isChannelPrefix c = true) (rest : Str) :
    prefixLeads (lead ++ c :: rest) = true ↔ channelChars lead = [] := by
  have htake : (lead ++ c :: rest).takeWhile (fun c => !isChannelPrefix c) = lead := by
    rw [List.takeWhile_append_of_pos (by simpa using hlead),
      List.takeWhile_cons_of_neg (by simp [hc]), List.append_nil]
  unfold prefixLeads
  rw [htake]
  simp [hc, channelChars]

/-- Valid characters in front of the `#` are the beginning of the name. -/
theorem channelChars_eq_nil_of_head {lead tail body : Str} {c : UInt8}
    (hname : channelChars lead ++ tail = c :: body) (hc : isChannelPrefix c = true) :
    channelChars lead = [] := by
  cases hlead : channelChars lead with
  | nil => rfl
  | cons d ds =>
    have hd : isValidChannelChar d = true := by
      apply isValidChannelChar_of_mem_channelChars (s := lead)
      simp [hlead]
    rw [hlead] at hname
    obtain ⟨rfl, -⟩ := List.cons.inj hname
    rw [isChannelPrefix_of_isValidChannelChar hd] at hc
    cases hc

/-- The name is `#` with the valid characters of the input, and is accepted if there are any. -/
def SanitizedAsDocumented (s : Str) : Prop :=
  sanitizeChannelName s = ch '#' :: channelChars s ∧
    (s.any isValidChannelChar = true → isValidChannelName (sanitizeChannelName s) = true)

instance (s : Str) : Decidable (SanitizedAsDocumented s) :=
  inferInstanceAs (Decidable (_ ∧ _))

theorem sanitizedAsDocumented_of_eq {s : Str}
    (heq : sanitizeChannelName s = ch '#' :: channelChars s) : SanitizedAsDocumented s := by
  refine ⟨heq, fun hany => ?_⟩
  obtain ⟨c, hc, hvalid⟩ := List.any_eq_true.1 hany
  have hmem : c ∈ channelChars s := List.mem_filter.2 ⟨hc, hvalid⟩
  rw [heq]
  simp [isValidChannelName, isChannelPrefix_hash, List.ne_nil_of_mem hmem]

/-- The sanitizer does what its comment says exactly when the first prefix, if there is one, comes
before every valid character. -/
theorem sanitizedAsDocumented_iff (s : Str) : SanitizedAsDocumented s ↔ prefixLeads s = true := by
  rcases channelPrefix_cases s with hnone | ⟨lead, c, rest, rfl, hlead, hc⟩
  · exact iff_of_true (sanitizedAsDocumented_of_eq (sanitizeChannelName_of_noPrefix hnone))
      (prefixLeads_of_noPrefix hnone)
  have heq := sanitizeChannelName_append_cons hlead hc rest
  have hchars : channelChars (lead ++ c :: rest) = channelChars lead ++ channelChars rest := by
    have hinvalid : isValidChannelChar c = false := by
      apply Bool.eq_false_iff.2
      intro hvalid
      rw [isChannelPrefix_of_isValidChannelChar hvalid] at hc
      cases hc
    simp [channelChars, hinvalid]
  rw [prefixLeads_append_cons hlead hc]
  constructor
  · rintro ⟨hdoc, -⟩
    rw [heq, hchars] at hdoc
    exact channelChars_eq_nil_of_head hdoc isChannelPrefix_hash
  · intro hnil
    apply sanitizedAsDocumented_of_eq
    rw [heq, hchars, hnil]
    rfl

/-- `/join general!` is refused: the prefix behind the name is taken for its beginning. -/
theorem not_sanitizedAsDocumented_trailing : ¬ ∀ s, SanitizedAsDocumented s := by
  intro h
  exact absurd (h (str "general!")) (by decide)

/-! ## Names of channels -/

/-- `#` and one or more valid channel characters. -/
def isChannelKey : Str → Bool
  | [] => false
  | c :: body => c == ch '#' && !body.isEmpty && body.all isValidChannelChar

theorem isChannelKey_iff {s : Str} :
    isChannelKey s = true ↔
      ∃ body, s = ch '#' :: body ∧ body ≠ [] ∧ ∀ c ∈ body, isValidChannelChar c = true := by
  cases s with
  | nil => simp [isChannelKey]
  | cons c body => simp [isChannelKey, and_assoc]

theorem sanitizeChannelName_of_hash (s : Str) :
    sanitizeChannelName (ch '#' :: s) = ch '#' :: channelChars s :=
  @sanitizeChannelName_append_cons [] (by simp) _ isChannelPrefix_hash s

/-- A sanitized name is sanitized. -/
theorem sanitizeChannelName_idem (s : Str) :
    sanitizeChannelName (sanitizeChannelName s) = sanitizeChannelName s := by
  have hchars : ∀ s, ∀ d ∈ channelChars s, isChannelPrefix d = false := fun s d hd =>
    isChannelPrefix_of_isValidChannelChar (isValidChannelChar_of_mem_channelChars hd)
  rcases channelPrefix_cases s with hnone | ⟨lead, c, rest, rfl, hlead, hc⟩
  · rw [sanitizeChannelName_of_noPrefix hnone,
      sanitizeChannelName_of_hash, channelChars_channelChars]
  · rw [sanitizeChannelName_append_cons hlead hc,
      sanitizeChannelName_append_cons (hchars lead) isChannelPrefix_hash]
    simp

/-- What the sanitizer returns and the validity test accepts is a channel key. -/
theorem isChannelKey_sanitizeChannelName {s : Str}
    (hvalid : isValidChannelName (sanitizeChannelName s) = true) :
    isChannelKey (sanitizeChannelName s) = true := by
  have hkey : ∃ body, sanitizeChannelName s = ch '#' :: channelChars body := by
    rcases channelPrefix_cases s with hnone | ⟨lead, c, rest, rfl, hlead, hc⟩
    · exact ⟨s, sanitizeChannelName_of_noPrefix hnone⟩
    · have heq := sanitizeChannelName_append_cons hlead hc rest
      cases hname : sanitizeChannelName (lead ++ c :: rest) with
      | nil => simp [hname, isValidChannelName] at hvalid
      | cons d body =>
        have hd : isChannelPrefix d = true := by
          simp only [hname, isValidChannelName, Bool.and_eq_true] at hvalid
          exact hvalid.1
        have hlead := channelChars_eq_nil_of_head (heq.symm.trans hname) hd
        rw [hlead, List.nil_append] at heq
        exact ⟨rest, hname.symm.trans heq⟩
  obtain ⟨body, heq⟩ := hkey
  rw [heq] at hvalid ⊢
  refine isChannelKey_iff.2 ⟨channelChars body, rfl, ?_, fun c hc => ?_⟩
  · simpa [isValidChannelName, isChannelPrefix_hash] using hvalid
  · exact isValidChannelChar_of_mem_channelChars hc

/-- The sanitizer leaves a channel key as it is. -/
theorem sanitizeChannelName_of_isChannelKey {s : Str} (hkey : isChannelKey s = true) :
    sanitizeChannelName s = s := by
  obtain ⟨body, rfl, -, hbody⟩ := isChannelKey_iff.1 hkey
  rw [sanitizeChannelName_of_hash, channelChars_of_all hbody]

end Ircord

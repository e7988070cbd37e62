import Mathlib.Data.List.Basic

/-!
# Reading JSON

The texts of RFC 8259, read from left to right: each reader returns a value and what is left of the
text.  A text is a sequence of bytes in UTF-8; bytes from 128 on are taken as they are, so a reader
is exact on texts that are well-formed UTF-8.  Numbers keep their spelling.
-/

namespace Json

abbrev Text := List UInt8

inductive Value
  | null
  | bool (b : Bool)
  | number (text : Text)
  | string (s : Text)
  | array (elems : List Value)
  | object (members : List (Text × Value))

/-! ## String literals -/

/-- Where a reader stands in a string literal. -/
inductive Mode
  | plain
  /-- Behind a backslash. -/
  | escape
  /-- In the four digits of a code unit, of which `left` are to come; `high` is the high surrogate
  that the unit has to complete. -/
  | hex (left value : ℕ) (high : Option ℕ)
  /-- Behind a high surrogate. -/
  | low (high : ℕ)
  | lowEscape (high : ℕ)
  deriving DecidableEq

/-- What the character behind a backslash stands for. -/
def escaped (c : UInt8) : Option UInt8 :=
  if c = 34 ∨ c = 92 ∨ c = 47 then some c
  else if c = 98 then some 8
  else if c = 102 then some 12
  else if c = 110 then some 10
  else if c = 114 then some 13
  else if c = 116 then some 9
  else none

def hexValue (c : UInt8) : Option ℕ :=
  if 48 ≤ c ∧ c ≤ 57 then some (c.toNat - 48)
  else if 65 ≤ c ∧ c ≤ 70 then some (c.toNat - 55)
  else if 97 ≤ c ∧ c ≤ 102 then some (c.toNat - 87)
  else none

/-- A code point in UTF-8. -/
def utf8 (n : ℕ) : Text :=
  if n < 0x80 then [.ofNat n]
  else if n < 0x800 then [.ofNat (0xC0 + n / 64), .ofNat (0x80 + n % 64)]
  else if n < 0x10000 then
    [.ofNat (0xE0 + n / 4096), .ofNat (0x80 + n / 64 % 64), .ofNat (0x80 + n % 64)]
  else
    [.ofNat (0xF0 + n / 262144), .ofNat (0x80 + n / 4096 % 64), .ofNat (0x80 + n / 64 % 64),
      .ofNat (0x80 + n % 64)]

/-- A complete code unit; surrogates come in pairs. -/
def readUnit (unit : ℕ) (high : Option ℕ) : Option (Mode × Text) :=
  match high with
  | none =>
    if 0xD800 ≤ unit ∧ unit < 0xDC00 then some (.low unit, [])
    else if 0xDC00 ≤ unit ∧ unit < 0xE000 then none
    else some (.plain, utf8 unit)
  | some high =>
    if 0xDC00 ≤ unit ∧ unit < 0xE000 then
      some (.plain, utf8 (0x10000 + (high - 0xD800) * 0x400 + (unit - 0xDC00)))
    else none

/-- One byte of a literal other than the closing quote: the next mode, and the bytes it adds to the
string.  Control characters stand only behind a backslash. -/
def step (mode : Mode) (c : UInt8) : Option (Mode × Text) :=
  match mode with
  | .plain => if c = 92 then some (.escape, []) else if c < 32 then none else some (.plain, [c])
  | .escape => if c = 117 then some (.hex 4 0 none, []) else (escaped c).map fun d => (.plain, [d])
  | .hex left value high =>
    (hexValue c).bind fun d =>
      if left ≤ 1 then readUnit (16 * value + d) high
      else some (.hex (left - 1) (16 * value + d) high, [])
  | .low high => if c = 92 then some (.lowEscape high, []) else none
  | .lowEscape high => if c = 117 then some (.hex 4 0 (some high), []) else none

/-- The rest of a literal up to its closing quote, behind the characters `out`. -/
def readChars (mode : Mode) (out : Text) : Text → Option (Text × Text)
  | [] => none
  | c :: cs =>
    if mode = .plain ∧ c = 34 then some (out, cs)
    else
      match step mode c with
      | none => none
      | some (mode, added) => readChars mode (out ++ added) cs

def readString : Text → Option (Text × Text)
  | 34 :: cs => readChars .plain [] cs
  | _ => none

/-- The string that a literal denotes. -/
def readLiteral (text : Text) : Option Text :=
  match readString text with
  | some (s, []) => some s
  | _ => none

/-! ## Numbers -/

def isDigit (c : UInt8) : Bool := 48 ≤ c && c ≤ 57

/-- Digits, at least one. -/
def readDigits (text : Text) : Option (Text × Text) :=
  if (text.takeWhile isDigit).isEmpty then none
  else some (text.takeWhile isDigit, text.dropWhile isDigit)

/-- An integer: no leading zeros. -/
def readInt : Text → Option (Text × Text)
  | 48 :: cs => some ([48], cs)
  | cs => readDigits cs

def readFrac : Text → Option (Text × Text)
  | 46 :: cs => (readDigits cs).map fun r => (46 :: r.1, r.2)
  | cs => some ([], cs)

def readExp : Text → Option (Text × Text)
  | c :: cs =>
    if c = 101 ∨ c = 69 then
      match cs with
      | 43 :: cs => (readDigits cs).map fun r => (c :: 43 :: r.1, r.2)
      | 45 :: cs => (readDigits cs).map fun r => (c :: 45 :: r.1, r.2)
      | cs => (readDigits cs).map fun r => (c :: r.1, r.2)
    else some ([], c :: cs)
  | [] => some ([], [])

def readUnsigned (text : Text) : Option (Text × Text) := do
  let (int, text) ← readInt text
  let (frac, text) ← readFrac text
  let (exp, text) ← readExp text
  return (int ++ frac ++ exp, text)

def readNumber : Text → Option (Text × Text)
  | 45 :: cs => (readUnsigned cs).map fun r => (45 :: r.1, r.2)
  | cs => readUnsigned cs

/-! ## Values -/

def isWs (c : UInt8) : Bool := c == 32 || c == 9 || c == 10 || c == 13

def skipWs (text : Text) : Text := text.dropWhile isWs

/-- One of the three names. -/
def readName (name : Text) (value : Value) (text : Text) : Option (Value × Text) :=
  if name.isPrefixOf text then some (value, text.drop name.length) else none

/-- Items separated by commas, up to the closing character; `fuel` bounds their number. -/
def readItems {α : Type} (item : Text → Option (α × Text)) (close : UInt8) :
    ℕ → Text → Option (List α × Text)
  | 0, _ => none
  | fuel + 1, text =>
    match item text with
    | none => none
    | some (a, text) =>
      match skipWs text with
      | [] => none
      | c :: cs =>
        if c = 44 then (readItems item close fuel cs).map fun r => (a :: r.1, r.2)
        else if c = close then some ([a], cs)
        else none

/-- Items between brackets, of which the first has been read. -/
def readList {α : Type} (item : Text → Option (α × Text)) (close : UInt8) (text : Text) :
    Option (List α × Text) :=
  match skipWs text with
  | [] => none
  | c :: cs => if c = close then some ([], cs) else readItems item close (text.length + 1) text

def readMember (value : Text → Option (Value × Text)) (text : Text) :
    Option ((Text × Value) × Text) := do
  let (key, text) ← readString (skipWs text)
  match skipWs text with
  | 58 :: text =>
    let (v, text) ← value text
    return ((key, v), text)
  | _ => none

/-- A value that is nested no deeper than `depth`. -/
def readValue : ℕ → Text → Option (Value × Text)
  | 0, _ => none
  | depth + 1, text =>
    match skipWs text with
    | [] => none
    | c :: cs =>
      if c = 123 then
        (readList (readMember (readValue depth)) 125 cs).map fun r => (.object r.1, r.2)
      else if c = 91 then (readList (readValue depth) 93 cs).map fun r => (.array r.1, r.2)
      else if c = 34 then (readChars .plain [] cs).map fun r => (.string r.1, r.2)
      else if c = 116 then readName [116, 114, 117, 101] (.bool true) (c :: cs)
      else if c = 102 then readName [102, 97, 108, 115, 101] (.bool false) (c :: cs)
      else if c = 110 then readName [110, 117, 108, 108] .null (c :: cs)
      else (readNumber (c :: cs)).map fun r => (.number r.1, r.2)

/-- The value that a JSON text denotes. -/
def parse (text : Text) : Option Value :=
  match readValue (text.length + 1) text with
  | some (v, rest) => if (skipWs rest).isEmpty then some v else none
  | none => none

/-! ## Reading what has been written -/

/-- The characters `e` between quotes. -/
def literal (e : Text) : Text := 34 :: e ++ [34]

/-- Inside a literal, the characters `e` are read as the string `s`. -/
def Spells (e s : Text) : Prop :=
  ∀ out rest, readChars .plain out (e ++ rest) = readChars .plain (out ++ s) rest

theorem spells_nil : Spells [] [] := by
  intro out rest
  rw [List.nil_append, List.append_nil]

theorem Spells.append {e e' s s' : Text} (h : Spells e s) (h' : Spells e' s') :
    Spells (e ++ e') (s ++ s') := by
  intro out rest
  rw [List.append_assoc, h, h', List.append_assoc]

/-- A character that needs no escape. -/
theorem spells_plain {c : UInt8} (hc : 32 ≤ c) (hquote : c ≠ 34) (hescape : c ≠ 92) :
    Spells [c] [c] := by
  intro out rest
  have hlt : ¬ c < 32 := by simpa using hc
  simp [readChars, step, hquote, hescape, hlt]

theorem spells_self {s : Text} (hs : ∀ c ∈ s, 32 ≤ c ∧ c ≠ 34 ∧ c ≠ 92) : Spells s s := by
  induction s with
  | nil => exact spells_nil
  | cons c s ih =>
    obtain ⟨hc, hquote, hescape⟩ := hs c List.mem_cons_self
    have hrest := ih fun d hd => hs d (List.mem_cons_of_mem c hd)
    exact (spells_plain hc hquote hescape).append hrest

/-- A backslash with one of the eight characters that may follow it alone. -/
theorem spells_escape {c d : UInt8} (hc : c ≠ 117) (hd : escaped c = some d) :
    Spells [92, c] [d] := by
  intro out rest
  simp [readChars, step, hc, hd]

/-- Control characters do not stand in a literal. -/
theorem readChars_control {c : UInt8} (hc : c < 32) (out rest : Text) :
    readChars .plain out (c :: rest) = none := by
  have hquote : c ≠ 34 := by
    rintro rfl
    exact absurd hc (by decide)
  have hescape : c ≠ 92 := by
    rintro rfl
    exact absurd hc (by decide)
  simp [readChars, step, hquote, hescape, hc]

theorem readChars_quote (out rest : Text) :
    readChars .plain out (34 :: rest) = some (out, rest) := by
  simp [readChars]

theorem Spells.readString {e s : Text} (h : Spells e s) (rest : Text) :
    readString (literal e ++ rest) = some (s, rest) := by
  have hread := h [] (34 :: rest)
  rw [readChars_quote] at hread
  simpa [Json.readString, literal] using hread

theorem skipWs_literal (e rest : Text) : skipWs (literal e ++ rest) = literal e ++ rest := by
  simp [skipWs, literal, isWs]

theorem skipWs_cons {c : UInt8} (hc : isWs c = false) (rest : Text) :
    skipWs (c :: rest) = c :: rest := by
  simp [skipWs, hc]

/-- A string where a value is expected. -/
theorem readValue_literal (depth : ℕ) (e rest : Text) :
    readValue (depth + 1) (literal e ++ rest) =
      (readString (literal e ++ rest)).map fun r => (.string r.1, r.2) := by
  rw [readValue, skipWs_literal]
  simp [literal, readString]

/-- A natural number as it is written: no leading zero. -/
def IsNat (digits : Text) : Prop :=
  digits = [48] ∨ ∃ c cs, digits = c :: cs ∧ c ≠ 48 ∧ ∀ d ∈ digits, isDigit d = true

/-- What may follow a number. -/
def EndsNumber : Text → Prop
  | [] => True
  | c :: _ => isDigit c = false ∧ c ≠ 46 ∧ c ≠ 101 ∧ c ≠ 69

theorem readFrac_of_ends {rest : Text} (h : EndsNumber rest) : readFrac rest = some ([], rest) := by
  cases rest with
  | nil => rfl
  | cons c rest =>
    obtain ⟨-, hdot, -, -⟩ := h
    unfold readFrac
    split
    · rename_i heq
      exact absurd (List.cons.inj heq).1 hdot
    · rfl

theorem readExp_of_ends {rest : Text} (h : EndsNumber rest) : readExp rest = some ([], rest) := by
  cases rest with
  | nil => rfl
  | cons c rest =>
    obtain ⟨-, -, he, hE⟩ := h
    simp [readExp, he, hE]

theorem readInt_append {digits rest : Text} (hdigits : IsNat digits) (h : EndsNumber rest) :
    readInt (digits ++ rest) = some (digits, rest) := by
  rcases hdigits with rfl | ⟨c, cs, rfl, hc, hall⟩
  · rfl
  have hstop : rest.takeWhile isDigit = [] ∧ rest.dropWhile isDigit = rest := by
    cases rest with
    | nil => exact ⟨rfl, rfl⟩
    | cons d rest => simp [h.1]
  have hread : readInt (c :: cs ++ rest) = readDigits (c :: cs ++ rest) := by
    rw [List.cons_append]
    unfold readInt
    split
    · rename_i heq
      exact absurd (List.cons.inj heq).1 hc
    · rfl
  rw [hread, readDigits, List.takeWhile_append_of_pos hall, List.dropWhile_append_of_pos hall,
    hstop.1, hstop.2]
  simp

theorem IsNat.head {digits : Text} (hdigits : IsNat digits) :
    ∃ c cs, digits = c :: cs ∧ isDigit c = true := by
  rcases hdigits with rfl | ⟨c, cs, rfl, -, hall⟩
  · exact ⟨48, [], rfl, by decide⟩
  · exact ⟨c, cs, rfl, hall c List.mem_cons_self⟩

/-- A natural number where a value is expected. -/
theorem readValue_nat (depth : ℕ) {digits rest : Text} (hdigits : IsNat digits)
    (h : EndsNumber rest) :
    readValue (depth + 1) (digits ++ rest) = some (.number digits, rest) := by
  have hunsigned : readUnsigned (digits ++ rest) = some (digits, rest) := by
    simp [readUnsigned, readInt_append hdigits h, readFrac_of_ends h, readExp_of_ends h]
  obtain ⟨c, cs, rfl, hc⟩ := hdigits.head
  have hne : ∀ d : UInt8, isDigit d = false → c ≠ d := by
    rintro d hd rfl
    rw [hc] at hd
    cases hd
  have hws : isWs c = false := by
    simp [isWs, hne 32 (by decide), hne 9 (by decide), hne 10 (by decide), hne 13 (by decide)]
  have hnumber : readNumber (c :: cs ++ rest) = some (c :: cs, rest) := by
    rw [List.cons_append] at hunsigned ⊢
    unfold readNumber
    split
    · rename_i heq
      exact absurd (List.cons.inj heq).1 (hne 45 (by decide))
    · exact hunsigned
  rw [List.cons_append] at hnumber ⊢
  rw [readValue, skipWs_cons hws]
  simp [hne 123 (by decide), hne 91 (by decide), hne 34 (by decide), hne 116 (by decide),
    hne 102 (by decide), hne 110 (by decide), hnumber]

/-- A key without escapes, its colon and a value. -/
theorem readMember_literal {key : Text} (hkey : Spells key key)
    (value : Text → Option (Value × Text)) (text : Text) :
    readMember value (literal key ++ 58 :: text) =
      (value text).map fun r => ((key, r.1), r.2) := by
  have hcolon : skipWs (58 :: text) = 58 :: text := skipWs_cons (by decide) text
  unfold readMember
  rw [skipWs_literal, hkey.readString]
  simp only [Option.bind_eq_bind, Option.bind_some, hcolon]
  cases value text <;> rfl

section Items

variable {α : Type} {item : Text → Option (α × Text)} {close : UInt8} {fuel : ℕ} {text rest : Text}
  {a : α}

theorem readItems_none (h : item text = none) : readItems item close (fuel + 1) text = none := by
  rw [readItems, h]

theorem readItems_more (h : item text = some (a, 44 :: rest)) :
    readItems item close (fuel + 1) text =
      (readItems item close fuel rest).map fun r => (a :: r.1, r.2) := by
  rw [readItems, h]
  simp [skipWs_cons (show isWs 44 = false by decide)]

theorem readItems_last (h : item text = some (a, close :: rest)) (hws : isWs close = false)
    (hcomma : close ≠ 44) : readItems item close (fuel + 1) text = some ([a], rest) := by
  rw [readItems, h]
  simp [skipWs_cons hws, hcomma]

end Items

/-- An object whose first member begins where the brace has been read. -/
theorem readValue_object (depth : ℕ) (e rest : Text) :
    readValue (depth + 1) (123 :: (literal e ++ rest)) =
      (readItems (readMember (readValue depth)) 125 ((literal e ++ rest).length + 1)
        (literal e ++ rest)).map fun r => (.object r.1, r.2) := by
  rw [readValue, skipWs_cons (by decide)]
  simp only [if_true, readList, skipWs_literal]
  simp [literal]

end Json

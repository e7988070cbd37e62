import IrcordServer.Text

/-!
# Reserved identities

`admin/reserved_identity.cpp`: the names that nobody can register.  The regular expressions in use
consist of characters and `.*`, and a text has to match from its beginning to its end.
-/

namespace Ircord

namespace ReservedIdentity

/-! ## Patterns -/

inductive PatternItem
  | char (c : UInt8)
  /-- `.*` -/
  | anything

abbrev Pattern := List PatternItem

/-- The pattern with this notation; the caret stands at the beginning, where it always holds. -/
def Pattern.ofChars : List Char → Pattern
  | [] => []
  | '^' :: cs => ofChars cs
  | '.' :: '*' :: cs => .anything :: ofChars cs
  | c :: cs => .char (ch c) :: ofChars cs

/-- What may follow a match of `.*`: a dot matches no line break. -/
def suffixes : Str → List Str
  | [] => [[]]
  | c :: s => (c :: s) :: if c = 10 ∨ c = 13 then [] else suffixes s

/-- `std::regex_match`, with `std::regex::icase`. -/
def regexMatch : Pattern → Str → Bool
  | [], s => s.isEmpty
  | .char c :: p, s =>
    match s with
    | [] => false
    | d :: s => tolower c == tolower d && regexMatch p s
  | .anything :: p, s => (suffixes s).any fun s => regexMatch p s

/-! ## The lists -/

/-- `exact_reserved_`. -/
def exactReserved : List Str :=
  ["admin", "administrator", "root", "sysop", "operator", "ircord", "server", "system", "owner",
    "founder", "boss", "god", "master", "sysadmin", "webmaster", "postmaster", "hostmaster",
    "abuse", "security", "support", "help", "info", "service", "bot", " IRCord", "mod",
    "moderator", "superuser", "su"].map str

/-- The first of `pattern_reserved_`. -/
def admPattern : Pattern := .ofChars "^adm.*".toList

/-- `pattern_reserved_`. -/
def patternReserved : List Pattern :=
  admPattern :: [".*admin.*", ".*adm1n.*", ".*4dmin.*", "^root.*", "^sys.*", "^oper.*",
    "^ircord.*", "^server.*", "^sys.*admin.*", "^web.*master.*", "^host.*master.*"].map
    fun s => .ofChars s.toList

/-! ## Normal forms -/

/-- `normalize`: the letters, in lower case, and the digits. -/
def normalize (nickname : Str) : Str :=
  nickname.filterMap fun c =>
    if isUpper c then some (c + 32) else if isLower c || isDigit c then some c else none

/-- One character of `normalize_leet`; the label with the euro sign is no single character. -/
def leetChar (c : UInt8) : UInt8 :=
  if c == ch '4' || c == ch '@' then ch 'a'
  else if c == ch '1' || c == ch '!' || c == ch '|' then ch 'i'
  else if c == ch '3' then ch 'e'
  else if c == ch '0' then ch 'o'
  else if c == ch '5' || c == ch '$' then ch 's'
  else if c == ch '7' then ch 't'
  else if c == ch '8' then ch 'b'
  else if c == ch '9' || c == ch 'g' then ch 'g'
  else if c == ch '2' then ch 'z'
  else if c == ch '+' then ch 't'
  else if c == ch '(' then ch 'c'
  else if c == ch ')' then ch 'd'
  else c

/-- `normalize_leet`. -/
def normalizeLeet (input : Str) : Str := input.map leetChar

/-! ## The decision -/

/-- The checks of a text against both lists. -/
def matchesReserved (text : Str) : Bool :=
  exactReserved.contains text || patternReserved.any fun p => regexMatch p text

/-- A digit before a reserved word. -/
def hasDigitPrefix : Str → Bool
  | [] => false
  | c :: rest =>
    !rest.isEmpty && isDigit c && (exactReserved.contains rest || regexMatch admPattern rest)

/-- `is_reserved`; the additional patterns are those that are regular expressions. -/
def isReserved (additionalPatterns : List (Str → Bool)) (nickname : Str) : Bool :=
  if nickname.isEmpty then false
  else
    let normalized := normalize nickname
    let leetNormalized := normalizeLeet normalized
    matchesReserved normalized || additionalPatterns.any (fun p => p normalized) ||
      (leetNormalized != normalized && matchesReserved leetNormalized) ||
      hasDigitPrefix normalized

/-- `contains_unicode_homoglyphs`. -/
def containsUnicodeHomoglyphs (nickname : Str) : Bool :=
  nickname.any fun c =>
    c > 127 || c &&& 0xE0 == 0xC0 || c &&& 0xF0 == 0xE0 || c &&& 0xF8 == 0xF0

end ReservedIdentity

end Ircord

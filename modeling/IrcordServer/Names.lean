import IrcordServer.Text

/-!
# Channel names and nicknames

`utils/channel_utils.hpp` and `utils/nickname_utils.hpp`.
-/

namespace Ircord

/-! ## Channel names -/

/-- One of `# & ! +`. -/
def isChannelPrefix (c : UInt8) : Bool := c == ch '#' || c == ch '&' || c == ch '!' || c == ch '+'

/-- A letter, a digit, or one of `- _ [ ] { } ^ | ~` and the grave accent. -/
def isValidChannelChar (c : UInt8) : Bool :=
  isAlnum c || c == ch '-' || c == ch '_' || c == ch '[' || c == ch ']' || c == 123 || c == 125 ||
    c == ch '^' || c == 96 || c == ch '|' || c == ch '~'

/-- The local variables of the loop in `sanitize_channel_name`. -/
structure SanitizeState where
  result : Str
  hasPrefix : Bool
  prefixAdded : Bool

/-- One character of the loop. -/
def sanitizeStep (s : SanitizeState) (c : UInt8) : SanitizeState :=
  if !s.prefixAdded && isSpace c then s
  else if isChannelPrefix c then
    if !s.hasPrefix then ⟨s.result ++ [ch '#'], true, true⟩ else s
  else if !isValidChannelChar c then { s with prefixAdded := true }
  else { s with result := s.result ++ [c], prefixAdded := true }

/-- `sanitize_channel_name`. -/
def sanitizeChannelName (input : Str) : Str :=
  if input.isEmpty then str "#"
  else
    let s := input.foldl sanitizeStep ⟨[], false, false⟩
    if !s.hasPrefix then ch '#' :: s.result else s.result

/-- `is_valid_channel_name`: a channel prefix and something behind it. -/
def isValidChannelName : Str → Bool
  | [] => false
  | c :: rest => isChannelPrefix c && !rest.isEmpty

/-! ## Nicknames -/

/-- `normalize_nickname`. -/
def normalizeNickname (nick : Str) : Str := lowercase nick

/-- `nicknames_equal`. -/
def nicknamesEqual (a b : Str) : Bool :=
  a.length == b.length && (a.zip b).all fun p => tolower p.1 == tolower p.2

/-- `generate_nick_suggestions`: the loop always fills the list, so no underscore is added. -/
def generateNickSuggestions (desired : Str) (count : ℕ) : List Str :=
  let suggestions := (List.range count).map fun i => desired ++ toStr (i + 1)
  if suggestions.length < count then suggestions ++ [desired ++ str "_"] else suggestions

/-- `format_nick_suggestions`. -/
def formatNickSuggestions (suggestions : List Str) : Str :=
  if suggestions.isEmpty then []
  else
    (suggestions.zipIdx).foldl
      (fun result p =>
        let separator :=
          if p.2 = 0 then [] else if p.2 + 1 = suggestions.length then str ", or " else str ", "
        result ++ separator ++ p.1)
      (str " Try: ")

end Ircord

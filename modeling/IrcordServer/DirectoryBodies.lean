import IrcordServer.DirectoryClient
import IrcordServer.Json

/-!
# The request bodies as JSON

`escape_json` has an escape for five of the control characters; the others it writes as they are,
and no JSON string may contain them.
-/

open Json

namespace Ircord

/-! ## Escaping -/

/-- A character that is no control character, or one with an escape of its own. -/
def isJsonSafe (c : UInt8) : Bool :=
  32 ≤ c || c == 8 || c == 9 || c == 10 || c == 12 || c == 13

/-- The string has no control characters that `escape_json` leaves as they are. -/
def jsonSafe (s : Str) : Bool := s.all isJsonSafe

theorem spells_escapeJsonChar {c : UInt8} (hc : isJsonSafe c = true) :
    Spells (escapeJsonChar c) [c] := by
  unfold escapeJsonChar
  split_ifs with hquote hbackslash hb hf hn hr ht
  · rw [hquote]
    exact spells_escape (by decide) (by decide)
  · rw [hbackslash]
    exact spells_escape (by decide) (by decide)
  · rw [hb]
    exact spells_escape (by decide) (by decide)
  · rw [hf]
    exact spells_escape (by decide) (by decide)
  · rw [hn]
    exact spells_escape (by decide) (by decide)
  · rw [hr]
    exact spells_escape (by decide) (by decide)
  · rw [ht]
    exact spells_escape (by decide) (by decide)
  · apply spells_plain _ hquote hbackslash
    simpa [isJsonSafe, hb, hf, hn, hr, ht] using hc

theorem escapeJson_cons (c : UInt8) (s : Str) :
    escapeJson (c :: s) = escapeJsonChar c ++ escapeJson s := List.flatMap_cons

theorem spells_escapeJson {s : Str} (hs : jsonSafe s = true) : Spells (escapeJson s) s := by
  induction s with
  | nil => exact spells_nil
  | cons c s ih =>
    rw [jsonSafe, List.all_cons, Bool.and_eq_true] at hs
    rw [escapeJson_cons]
    exact (spells_escapeJsonChar hs.1).append (ih hs.2)

/-- The first control character without an escape ends the reading. -/
theorem readChars_escapeJson {s : Str} (hs : jsonSafe s = false) (out rest : Text) :
    readChars .plain out (escapeJson s ++ rest) = none := by
  induction s generalizing out with
  | nil => cases hs
  | cons c s ih =>
    rw [escapeJson_cons, List.append_assoc]
    by_cases hc : isJsonSafe c = true
    · rw [spells_escapeJsonChar hc]
      apply ih
      rw [jsonSafe, List.all_cons, hc, Bool.true_and] at hs
      exact hs
    · simp only [isJsonSafe, Bool.or_eq_true, decide_eq_true_eq, beq_iff_eq, not_or] at hc
      obtain ⟨⟨⟨⟨⟨hlow, hb⟩, ht⟩, hn⟩, hf⟩, hr⟩ := hc
      have hlt : c < 32 := by simpa using hlow
      have hplain : escapeJsonChar c = [c] := by
        unfold escapeJsonChar
        rw [if_neg, if_neg, if_neg hb, if_neg hf, if_neg hn, if_neg hr, if_neg ht]
        · rintro rfl
          exact absurd hlt (by decide)
        · rintro rfl
          exact absurd hlt (by decide)
      rw [hplain]
      exact readChars_control hlt out _

theorem readString_escapeJson (s : Str) (rest : Text) :
    readString (literal (escapeJson s) ++ rest) =
      if jsonSafe s = true then some (s, rest) else none := by
  split_ifs with hs
  · exact (spells_escapeJson hs).readString rest
  · rw [Bool.not_eq_true] at hs
    have hread := readChars_escapeJson hs [] (34 :: rest)
    simpa [readString, literal] using hread

theorem readLiteral_escapeJson (s : Str) :
    readLiteral (literal (escapeJson s)) = if jsonSafe s = true then some s else none := by
  have hread := readString_escapeJson s []
  rw [List.append_nil] at hread
  rw [readLiteral, hread]
  split_ifs <;> rfl

/-! ## The bodies -/

theorem pingBody_eq (serverId : Str) :
    pingBody serverId =
      123 :: (literal (str "server_id") ++ 58 :: (literal (escapeJson serverId) ++ [125])) := by
  have hopen : str "\x7b\"server_id\":\"" = 123 :: (literal (str "server_id") ++ [58, 34]) := by
    decide
  have hclose : str "\"\x7d" = [34, 125] := by decide
  simp [pingBody, hopen, hclose, literal]

/-- The name that the directory is told. -/
def displayedName (config : ServerConfig) : Str :=
  if config.serverName.isEmpty then str "IRCord Server" else config.serverName

/-- The description that the directory is told. -/
def displayedDescription (config : ServerConfig) : Str :=
  if config.serverDescription.isEmpty then str "An IRCord encrypted chat server"
  else config.serverDescription

/-! The registration body from each of its members on. -/

def fromDescription (config : ServerConfig) : Text :=
  literal (str "description") ++
    58 :: (literal (escapeJson (displayedDescription config)) ++ [125])

def fromName (config : ServerConfig) : Text :=
  literal (str "name") ++
    58 :: (literal (escapeJson (displayedName config)) ++ 44 :: fromDescription config)

def fromPort (config : ServerConfig) : Text :=
  literal (str "port") ++ 58 :: (toStr config.port.toNat ++ 44 :: fromName config)

def fromHost (config : ServerConfig) : Text :=
  literal (str "host") ++ 58 :: (literal (escapeJson config.host) ++ 44 :: fromPort config)

theorem registrationBody_eq (config : ServerConfig) :
    registrationBody config = 123 :: fromHost config := by
  have hopen : str "\x7b" = [123] := by decide
  have hhost : str "\"host\":\"" = literal (str "host") ++ [58, 34] := by decide
  have hport : str "\"port\":" = literal (str "port") ++ [58] := by decide
  have hname : str "\"name\":\"" = literal (str "name") ++ [58, 34] := by decide
  have hdesc : str "\"description\":\"" = literal (str "description") ++ [58, 34] := by decide
  have hnext : str "\"," = [34, 44] := by decide
  have hcomma : str "," = [44] := by decide
  have hquote : str "\"" = [34] := by decide
  have hclose : str "\x7d" = [125] := by decide
  have hliteral : ∀ e : Text, literal e = 34 :: e ++ [34] := fun _ => rfl
  simp only [registrationBody, hopen, hhost, hport, hname, hdesc, hnext, hcomma, hquote, hclose,
    fromHost, fromPort, fromName, fromDescription, displayedName, displayedDescription]
  simp [hliteral (escapeJson _)]

/-- A member of the object whose value is an escaped string. -/
theorem readMember_escapeJson {key : Text} (hkey : Spells key key) (depth : ℕ) (s rest : Text) :
    readMember (readValue (depth + 1)) (literal key ++ 58 :: (literal (escapeJson s) ++ rest)) =
      if jsonSafe s = true then some ((key, .string s), rest) else none := by
  rw [readMember_literal hkey, readValue_literal, readString_escapeJson]
  split_ifs <;> rfl

theorem parse_pingBody (serverId : Str) :
    parse (pingBody serverId) =
      if jsonSafe serverId = true then some (.object [(str "server_id", .string serverId)])
      else none := by
  have hkey : Spells (str "server_id") (str "server_id") := spells_self (by decide +kernel)
  have hlength : ∃ depth, (pingBody serverId).length = depth + 1 := by
    rw [pingBody_eq]
    exact ⟨_, rfl⟩
  obtain ⟨depth, hdepth⟩ := hlength
  have hmember := readMember_escapeJson hkey depth serverId [125]
  unfold parse
  rw [hdepth, pingBody_eq, readValue_object]
  split_ifs with hsafe
  · rw [if_pos hsafe] at hmember
    rw [readItems_last hmember (by decide) (by decide)]
    rfl
  · rw [if_neg hsafe] at hmember
    rw [readItems_none hmember]
    rfl

theorem isNat_toStr (n : ℕ) : IsNat (toStr n) := by
  by_cases hn : n = 0
  · left
    rw [hn]
    decide
  · right
    cases hcons : toStr n with
    | nil => exact absurd hcons (toStr_ne_nil n)
    | cons c cs =>
      refine ⟨c, cs, rfl, head_toStr hn hcons, fun d hd => ?_⟩
      exact isDigit_of_mem_toStr (n := n) (hcons ▸ hd)

/-- A member whose value is a number. -/
theorem readMember_nat {key : Text} (hkey : Spells key key) (depth n : ℕ) {rest : Text}
    (hends : EndsNumber rest) :
    readMember (readValue (depth + 1)) (literal key ++ 58 :: (toStr n ++ rest)) =
      some ((key, .number (toStr n)), rest) := by
  rw [readMember_literal hkey, readValue_nat depth (isNat_toStr n) hends]
  rfl

theorem readMember_fromDescription (depth : ℕ) (config : ServerConfig) :
    readMember (readValue (depth + 1)) (fromDescription config) =
      if jsonSafe (displayedDescription config) = true then
        some ((str "description", .string (displayedDescription config)), [125])
      else none :=
  readMember_escapeJson (spells_self (by decide +kernel)) depth _ _

theorem readMember_fromName (depth : ℕ) (config : ServerConfig) :
    readMember (readValue (depth + 1)) (fromName config) =
      if jsonSafe (displayedName config) = true then
        some ((str "name", .string (displayedName config)), 44 :: fromDescription config)
      else none :=
  readMember_escapeJson (spells_self (by decide +kernel)) depth _ _

theorem readMember_fromPort (depth : ℕ) (config : ServerConfig) :
    readMember (readValue (depth + 1)) (fromPort config) =
      some ((str "port", .number (toStr config.port.toNat)), 44 :: fromName config) :=
  readMember_nat (spells_self (by decide +kernel)) depth _ (by simp [EndsNumber, Json.isDigit])

theorem readMember_fromHost (depth : ℕ) (config : ServerConfig) :
    readMember (readValue (depth + 1)) (fromHost config) =
      if jsonSafe config.host = true then
        some ((str "host", .string config.host), 44 :: fromPort config)
      else none :=
  readMember_escapeJson (spells_self (by decide +kernel)) depth _ _

/-- The value that the registration body denotes. -/
def registrationValue (config : ServerConfig) : Value :=
  .object [(str "host", .string config.host), (str "port", .number (toStr config.port.toNat)),
    (str "name", .string (displayedName config)),
    (str "description", .string (displayedDescription config))]

theorem parse_registrationBody (config : ServerConfig) :
    parse (registrationBody config) =
      if (jsonSafe config.host && jsonSafe (displayedName config) &&
          jsonSafe (displayedDescription config)) = true then some (registrationValue config)
      else none := by
  have hlength : ∃ depth, (registrationBody config).length = depth + 1 := by
    rw [registrationBody_eq]
    exact ⟨_, rfl⟩
  have hfuel : ∃ fuel, (fromHost config).length + 1 = fuel + 4 := by
    have hlong : 3 ≤ (fromHost config).length := by
      simp only [fromHost, literal, List.length_append, List.length_cons]
      omega
    exact ⟨(fromHost config).length - 3, by omega⟩
  obtain ⟨depth, hdepth⟩ := hlength
  obtain ⟨fuel, hfuel⟩ := hfuel
  have hvalue : readValue (depth + 1 + 1) (123 :: fromHost config) =
      (readItems (readMember (readValue (depth + 1))) 125 (fuel + 4) (fromHost config)).map
        fun r => (.object r.1, r.2) := by
    rw [← hfuel]
    exact readValue_object (depth + 1) _ _
  have hhost := readMember_fromHost depth config
  have hport := readMember_fromPort depth config
  have hname := readMember_fromName depth config
  have hdesc := readMember_fromDescription depth config
  unfold parse
  rw [hdepth, registrationBody_eq, hvalue]
  cases hsafe : jsonSafe config.host with
  | false =>
    rw [hsafe, if_neg Bool.false_ne_true] at hhost
    rw [readItems_none hhost]
    rfl
  | true =>
    rw [hsafe, if_pos rfl] at hhost
    rw [readItems_more hhost, readItems_more hport]
    cases hsafe' : jsonSafe (displayedName config) with
    | false =>
      rw [hsafe', if_neg Bool.false_ne_true] at hname
      rw [readItems_none hname]
      rfl
    | true =>
      rw [hsafe', if_pos rfl] at hname
      rw [readItems_more hname]
      cases hsafe'' : jsonSafe (displayedDescription config) with
      | false =>
        rw [hsafe'', if_neg Bool.false_ne_true] at hdesc
        rw [readItems_none hdesc]
        rfl
      | true =>
        rw [hsafe'', if_pos rfl] at hdesc
        rw [readItems_last hdesc (by decide) (by decide)]
        rfl

/-- The defaults have nothing to escape. -/
theorem jsonSafe_displayed (config : ServerConfig) :
    jsonSafe (displayedName config) = jsonSafe config.serverName ∧
      jsonSafe (displayedDescription config) = jsonSafe config.serverDescription := by
  have hname : jsonSafe (str "IRCord Server") = true := by decide
  have hdesc : jsonSafe (str "An IRCord encrypted chat server") = true := by decide
  unfold displayedName displayedDescription
  constructor
  · split_ifs with hempty
    · rw [hname, List.isEmpty_iff.1 hempty]
      rfl
    · rfl
  · split_ifs with hempty
    · rw [hdesc, List.isEmpty_iff.1 hempty]
      rfl
    · rfl

/-- A string between quotes is a JSON string that denotes it, and a body is a JSON text, exactly
when every control character in them is one of those that `escape_json` escapes. -/
theorem escaped_bodies_iff (s : Str) (config : ServerConfig) (serverId : Str) :
    (readLiteral (literal (escapeJson s)) = some s ↔ jsonSafe s = true) ∧
      ((parse (registrationBody config)).isSome = true ↔
        jsonSafe config.host = true ∧ jsonSafe config.serverName = true ∧
          jsonSafe config.serverDescription = true) ∧
      ((parse (pingBody serverId)).isSome = true ↔ jsonSafe serverId = true) := by
  refine ⟨?_, ?_, ?_⟩
  · rw [readLiteral_escapeJson]
    split_ifs with hsafe <;> simp [hsafe]
  · rw [parse_registrationBody, (jsonSafe_displayed config).1, (jsonSafe_displayed config).2]
    split_ifs with hsafe
    · simpa [and_assoc] using hsafe
    · simpa [and_assoc] using hsafe
  · rw [parse_pingBody]
    split_ifs with hsafe <;> simp [hsafe]

/-- A server name with an escape character makes the literal no JSON string. -/
theorem not_readLiteral_control : ¬ ∀ s, readLiteral (literal (escapeJson s)) = some s := by
  intro h
  exact absurd (h [27]) (by decide)

end Ircord

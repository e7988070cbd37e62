import IrcordServer.DirectoryClient
import IrcordServer.Http

/-!
# What the directory client sends and receives

`net/directory_client.cpp`: the text of a request, what is made of the text of a response, and the
identifier in the body of an accepted registration.  A response comes in pieces of any size.
-/

open Search

namespace Ircord

/-! ## Requests -/

/-- Bytes that are no blanks and no control characters. -/
def IsVisible (s : Str) : Prop := ∀ c ∈ s, 32 < c

theorem IsVisible.append {s t : Str} (hs : IsVisible s) (ht : IsVisible t) : IsVisible (s ++ t) :=
  fun c hc => (List.mem_append.1 hc).elim (hs c) (ht c)

/-- `parse_http_response`: whether the status is a success, and the body. -/
def parseHttpResponse (response : Str) : Option (Bool × Str) :=
  match find (str "\r\n\r\n") response with
  | none => none
  | some bodyStart =>
    match find (str " ") response with
    | none => none
    | some statusPos =>
      match stoi ((response.drop (statusPos + 1)).take 3) with
      | none => none
      | some statusCode =>
        some (decide (statusCode ≥ 200 ∧ statusCode < 300), response.drop (bodyStart + 4))

/-- How an `async_read_some` ends that reads nothing. -/
inductive ReadEnd
  | eof | streamTruncated
  | failed (message : Str)

/-- `async_read_response`: the callback's arguments, behind what was read before. -/
def asyncReadResponse (response : Str) : List Bytes → ReadEnd → Bool × Str
  | piece :: pieces, ending => asyncReadResponse (response ++ piece) pieces ending
  | [], .failed message => (false, str "Read failed: " ++ message)
  | [], _ =>
    match parseHttpResponse response with
    | some (success, body) => (success, body)
    | none => (false, str "Invalid HTTP response")

/-- How a `post_request` goes. -/
inductive PostOutcome
  | resolveFailed (message : Str)
  | connectFailed (message : Str)
  | handshakeFailed (message : Str)
  | writeFailed (message : Str)
  | answered (pieces : List Bytes) (ending : ReadEnd)

/-- The callback's arguments. -/
def PostOutcome.result : PostOutcome → Bool × Str
  | .resolveFailed message => (false, str "DNS resolution failed: " ++ message)
  | .connectFailed message => (false, str "Connection failed: " ++ message)
  | .handshakeFailed message => (false, str "TLS handshake failed: " ++ message)
  | .writeFailed message => (false, str "Request write failed: " ++ message)
  | .answered pieces ending => asyncReadResponse [] pieces ending

/-- The identifier in the answer to a registration.  A search behind the end finds nothing. -/
def serverIdOf (response : Str) : Option Str :=
  match find (str "\"server_id\"") response with
  | none => none
  | some idPos =>
    let colonPos := findFrom (str ":") response idPos
    match colonPos.bind fun colonPos => findFrom (str "\"") response colonPos with
    | none => none
    | some quoteStart =>
      match findFrom (str "\"") response (quoteStart + 1) with
      | none => none
      | some quoteEnd =>
        some ((response.drop (quoteStart + 1)).take (quoteEnd - quoteStart - 1))

/-- The answer to a ping says that the directory does not know the server. -/
def forgotten (response : Str) : Bool :=
  (find (str "not found") response).isSome || (find (str "Invalid server") response).isSome

/-! ## The pieces of a response -/

/-- It makes no difference how a response is cut into pieces. -/
theorem asyncReadResponse_eq (response : Str) (pieces : List Bytes) (ending : ReadEnd) :
    asyncReadResponse response pieces ending =
      asyncReadResponse (response ++ pieces.flatten) [] ending := by
  induction pieces generalizing response with
  | nil => rw [List.flatten_nil, List.append_nil]
  | cons piece pieces ih => rw [asyncReadResponse, ih, List.flatten_cons, List.append_assoc]

/-! ## Well-formed responses -/

theorem stoi_statusText {status : ℕ} (h : 100 ≤ status ∧ status < 1000) :
    stoi (Http.Response.statusText status) = some (status : ℤ) := by
  have hdigit : ∀ d < 10,
      isDigit (.ofNat (48 + d)) = true ∧ (UInt8.ofNat (48 + d)).toNat = 48 + d := by decide
  have hvalue : digitsValue (Http.Response.statusText status) = status := by
    simp only [digitsValue, Http.Response.statusText, List.foldl_cons, List.foldl_nil,
      (hdigit (status / 100) (by omega)).2, (hdigit (status / 10 % 10) (by omega)).2,
      (hdigit (status % 10) (by omega)).2]
    omega
  have hdigits : ∀ c ∈ Http.Response.statusText status, isDigit c = true := by
    intro c hc
    simp only [Http.Response.statusText, List.mem_cons, List.not_mem_nil, or_false] at hc
    rcases hc with rfl | rfl | rfl
    · exact (hdigit _ (by omega)).1
    · exact (hdigit _ (by omega)).1
    · exact (hdigit _ (by omega)).1
  have hne : Http.Response.statusText status ≠ [] := List.cons_ne_nil _ _
  rw [stoi_of_digits hne hdigits (by omega), hvalue]

/-- The status and the body of a response are found whatever the header says. -/
theorem parseHttpResponse_text {r : Http.Response} (h : r.WellFormed) :
    parseHttpResponse r.text = some (decide (200 ≤ r.status ∧ r.status < 300), r.body) := by
  have hblank : str "\r\n\r\n" = Http.crlf ++ Http.crlf := by decide
  have hspace : str " " = [32] := by decide
  have hhead := Http.Response.isHead h
  have hbody :
      r.text.drop ((Http.joined (r.startLine :: r.fields.map Http.Field.text)).length + 4) =
        r.body := by
    unfold Http.Response.text
    rw [Http.render_eq hhead.ne_nil, ← List.drop_drop, List.drop_left]
    rfl
  obtain ⟨more, hstart⟩ : ∃ more, r.text =
      r.version ++ 32 :: (Http.Response.statusText r.status ++ 32 :: more) := by
    refine ⟨r.reason ++ (Http.crlf ++ ((r.fields.map Http.Field.text).flatMap (· ++ Http.crlf) ++
      (Http.crlf ++ r.body))), ?_⟩
    simp [Http.Response.text, Http.render, Http.Response.startLine]
  have hstatus : (r.text.drop (r.version.length + 1)).take 3 =
      Http.Response.statusText r.status := by
    rw [hstart, ← List.drop_drop, List.drop_left]
    rfl
  have hfind : find (Http.crlf ++ Http.crlf) r.text =
      some (Http.joined (r.startLine :: r.fields.map Http.Field.text)).length :=
    Http.find_render hhead r.body
  have hversion : find [32] r.text = some r.version.length := by
    rw [hstart]
    exact find_singleton h.version_plain
  unfold parseHttpResponse
  rw [hblank, hfind, hspace, hversion]
  simp only [hstatus, stoi_statusText h.status_range, hbody]
  congr 3
  simp only [eq_iff_iff]
  omega

/-! ## Registration -/

/-- The white space of JSON. -/
def IsGap (s : Str) : Prop := ∀ c ∈ s, c = 32 ∨ c = 9 ∨ c = 10 ∨ c = 13

/-- The first member of the body that is called `server_id` has the identifier, in a string without
escaped quotes. -/
structure Assigns (body serverId : Str) : Prop where
  member : ∃ before sep gap gap' after, body = before ++ sep :: (str "\"server_id\"" ++
    (gap ++ 58 :: (gap' ++ 34 :: (serverId ++ 34 :: after)))) ∧
    ¬ str "\"server_id\"" <:+: before ∧ sep ∉ str "\"server_id\"" ∧ IsGap gap ∧ IsGap gap'
  plain : ∀ c ∈ serverId, c ≠ 34

theorem serverIdOf_of_assigns {body serverId : Str} (h : Assigns body serverId) :
    serverIdOf body = some serverId := by
  obtain ⟨⟨before, sep, gap, gap', after, hbody, hfirst, hsep, hgap, hgap'⟩, hplain⟩ := h
  have hcolonChar : str ":" = [58] := by decide
  have hquoteChar : str "\"" = [34] := by decide
  have hid : find (str "\"server_id\"") body = some (before.length + 1) := by
    rw [hbody, find_append_cons hsep hfirst, find_of_prefix (List.prefix_append _ _),
      Option.map_some, Nat.zero_add]
  have hkey : ∀ c ∈ str "\"server_id\"" ++ gap, c ≠ 58 := by
    have hliteral : ∀ c ∈ str "\"server_id\"", c ≠ 58 := by decide +kernel
    intro c hc
    rcases List.mem_append.1 hc with hc | hc
    · exact hliteral c hc
    · rcases hgap c hc with rfl | rfl | rfl | rfl <;> decide
  have hvalue : ∀ c ∈ 58 :: gap', c ≠ 34 := by
    intro c hc
    rcases List.mem_cons.1 hc with rfl | hc
    · decide
    · rcases hgap' c hc with rfl | rfl | rfl | rfl <;> decide
  have hcolon : findFrom [58] body (before.length + 1) =
      some (before.length + 1 + (str "\"server_id\"" ++ gap).length) := by
    have hparts : body = (before ++ [sep]) ++ ((str "\"server_id\"" ++ gap) ++
        58 :: (gap' ++ 34 :: (serverId ++ 34 :: after))) := by rw [hbody]; simp
    exact findFrom_singleton hparts (by simp) hkey
  have hopen : findFrom [34] body (before.length + 1 + (str "\"server_id\"" ++ gap).length) =
      some (before.length + 1 + (str "\"server_id\"" ++ gap).length + (58 :: gap').length) := by
    have hparts : body = (before ++ sep :: (str "\"server_id\"" ++ gap)) ++
        ((58 :: gap') ++ 34 :: (serverId ++ 34 :: after)) := by rw [hbody]; simp
    refine findFrom_singleton hparts ?_ hvalue
    rw [List.length_append, List.length_cons]
    omega
  have hclose : findFrom [34] body (before.length + 1 + (str "\"server_id\"" ++ gap).length +
      (58 :: gap').length + 1) = some (before.length + 1 + (str "\"server_id\"" ++ gap).length +
        (58 :: gap').length + 1 + serverId.length) := by
    have hparts : body = (before ++ sep :: (str "\"server_id\"" ++ gap ++ 58 :: gap' ++ [34])) ++
        (serverId ++ 34 :: after) := by rw [hbody]; simp
    refine findFrom_singleton hparts ?_ hplain
    simp only [List.length_append, List.length_cons, List.length_nil]
    omega
  have hbehind : body.drop (before.length + 1 + (str "\"server_id\"" ++ gap).length +
      (58 :: gap').length + 1) = serverId ++ 34 :: after := by
    have hparts : body = (before ++ sep :: (str "\"server_id\"" ++ gap ++ 58 :: gap' ++ [34])) ++
        (serverId ++ 34 :: after) := by rw [hbody]; simp
    rw [hparts, List.drop_left']
    simp only [List.length_append, List.length_cons, List.length_nil]
    omega
  unfold serverIdOf
  rw [hid, hcolonChar, hquoteChar]
  simp only [hcolon, Option.bind_some, hopen, hclose, hbehind]
  congr 1
  exact List.take_left' (by omega)

/-- A response is understood however it comes in, when the connection is closed behind it. -/
theorem result_answered {r : Http.Response} (h : r.WellFormed) {pieces : List Bytes}
    (hpieces : pieces.flatten = r.text) {ending : ReadEnd}
    (hending : ending = .eof ∨ ending = .streamTruncated) :
    (PostOutcome.answered pieces ending).result =
      (decide (200 ≤ r.status ∧ r.status < 300), r.body) := by
  rw [PostOutcome.result, asyncReadResponse_eq, List.nil_append, hpieces]
  rcases hending with rfl | rfl
  · rw [asyncReadResponse, parseHttpResponse_text h]
    nofun
  · rw [asyncReadResponse, parseHttpResponse_text h]
    nofun

end Ircord

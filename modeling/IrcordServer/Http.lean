import Mathlib.Data.List.TakeWhile
import IrcordServer.Search

/-!
# HTTP/1.1 messages

The texts of RFC 9112: a start line and header fields, one to a line, an empty line and a body.  A
message with a `Content-Length` ends after that many bytes.
-/

namespace Http

open Search

abbrev Text := List UInt8

def crlf : Text := [13, 10]

/-- A text without line breaks. -/
def IsLine (s : Text) : Prop := ∀ c ∈ s, c ≠ 13 ∧ c ≠ 10

/-! ## Lines -/

/-- The parts between the line breaks of a text. -/
def lines : Text → List Text
  | [] => [[]]
  | 13 :: 10 :: cs => [] :: lines cs
  | c :: cs =>
    match lines cs with
    | [] => [[c]]
    | line :: rest => (c :: line) :: rest

/-- Lines, each with its line break, an empty line and a body. -/
def render (ls : List Text) (body : Text) : Text := ls.flatMap (· ++ crlf) ++ (crlf ++ body)

/-- The lines in front of the first empty one, and what follows that. -/
def split (text : Text) : Option (List Text × Text) :=
  (find (crlf ++ crlf) text).map fun n => (lines (text.take n), text.drop (n + 4))

theorem not_blank_of_line {s rest : Text} (hs : IsLine s) (k : ℕ) (hk : k < s.length) :
    ¬ crlf ++ crlf <+: (s ++ rest).drop k := by
  intro hbegins
  rw [List.drop_append_of_le_length (Nat.le_of_lt hk), List.drop_eq_getElem_cons hk] at hbegins
  exact (hs _ (List.getElem_mem hk)).1 (List.cons_prefix_cons.1 hbegins).1.symm

/-- An empty line right behind a line. -/
theorem find_blank {s : Text} (hs : IsLine s) (body : Text) :
    find (crlf ++ crlf) (s ++ (crlf ++ (crlf ++ body))) = some s.length := by
  rw [find_append (not_blank_of_line hs),
    find_of_prefix (List.prefix_append_right_inj crlf |>.2 (List.prefix_append crlf body))]
  simp

/-- A line in front of another one that is not empty. -/
theorem find_blank_append {s t rest : Text} (hs : IsLine s) (ht : IsLine t) (hne : t ≠ []) :
    find (crlf ++ crlf) (s ++ (crlf ++ (t ++ rest))) =
      (find (crlf ++ crlf) (t ++ rest)).map (· + (s.length + 2)) := by
  obtain ⟨c, t, rfl⟩ := List.exists_cons_of_ne_nil hne
  have hc : c ≠ 13 := (ht c List.mem_cons_self).1
  have hbreak : find (crlf ++ crlf) (crlf ++ (c :: t ++ rest)) =
      (find (crlf ++ crlf) (c :: t ++ rest)).map (· + 2) := by
    apply find_append
    intro k hk hbegins
    match k with
    | 0 =>
      have hsame := (List.prefix_append_right_inj crlf).1 hbegins
      exact hc (List.cons_prefix_cons.1 hsame).1.symm
    | 1 => exact absurd (List.cons_prefix_cons.1 hbegins).1 (by decide)
    | k + 2 => exact absurd hk (by simp [crlf])
  rw [find_append (not_blank_of_line hs), hbreak, Option.map_map]
  congr 1
  funext n
  exact (Nat.add_assoc n 2 s.length).trans (by rw [Nat.add_comm 2])

/-- What a head is made of: at least one line, and no empty one. -/
structure IsHead (ls : List Text) : Prop where
  ne_nil : ls ≠ []
  isLine : ∀ s ∈ ls, IsLine s
  line_ne_nil : ∀ s ∈ ls, s ≠ []

/-- The lines of a head without the last line break. -/
def joined : List Text → Text
  | [] => []
  | [s] => s
  | s :: t :: ls => s ++ (crlf ++ joined (t :: ls))

theorem render_eq {ls : List Text} (hne : ls ≠ []) (body : Text) :
    render ls body = joined ls ++ (crlf ++ (crlf ++ body)) := by
  unfold render
  induction ls with
  | nil => exact absurd rfl hne
  | cons s ls ih =>
    cases ls with
    | nil => simp [joined]
    | cons t ls =>
      rw [List.flatMap_cons, List.append_assoc, ih (List.cons_ne_nil _ _), joined]
      simp only [List.append_assoc]

/-- The first empty line is the one behind the head. -/
theorem find_render {ls : List Text} (h : IsHead ls) (body : Text) :
    find (crlf ++ crlf) (render ls body) = some (joined ls).length := by
  obtain ⟨hne, hline, hfull⟩ := h
  rw [render_eq hne]
  induction ls with
  | nil => exact absurd rfl hne
  | cons s ls ih =>
    have hs := hline s List.mem_cons_self
    cases ls with
    | nil => exact find_blank hs body
    | cons t ls =>
      have ht := hline t (List.mem_cons_of_mem s List.mem_cons_self)
      have hfill := hfull t (List.mem_cons_of_mem s List.mem_cons_self)
      have hrest := ih (List.cons_ne_nil _ _) (fun r hr => hline r (List.mem_cons_of_mem s hr))
        fun r hr => hfull r (List.mem_cons_of_mem s hr)
      obtain ⟨more, hmore⟩ : ∃ more, joined (t :: ls) ++ (crlf ++ (crlf ++ body)) = t ++ more := by
        cases ls with
        | nil => exact ⟨_, rfl⟩
        | cons r ls => exact ⟨_, by rw [joined, List.append_assoc]⟩
      rw [joined, List.append_assoc, List.append_assoc, hmore, find_blank_append hs ht hfill,
        ← hmore, hrest]
      simp [crlf]
      omega

/-- An ASCII literal. -/
def ascii (s : String) : Text := s.toList.map fun c => .ofNat c.toNat

structure Field where
  name : Text
  value : Text
  deriving DecidableEq

def isBlank (c : UInt8) : Bool := c == 32 || c == 9

/-- A text without the blanks around it. -/
def trim (s : Text) : Text := ((s.dropWhile isBlank).reverse.dropWhile isBlank).reverse

/-- A field: its name up to the colon, and its value. -/
def readField (line : Text) : Option Field :=
  let name := line.takeWhile (· != 58)
  match line.dropWhile (· != 58) with
  | [] => none
  | _ :: value => if name.isEmpty || name.any isBlank then none else some ⟨name, trim value⟩

def Field.text (f : Field) : Text := f.name ++ 58 :: 32 :: f.value

structure Field.WellFormed (f : Field) : Prop where
  name_ne : f.name ≠ []
  name_plain : ∀ c ∈ f.name, c ≠ 58 ∧ isBlank c = false
  name_line : IsLine f.name
  value_line : IsLine f.value
  value_trimmed : trim f.value = f.value

theorem Field.isLine_text {f : Field} (h : f.WellFormed) : IsLine f.text ∧ f.text ≠ [] := by
  constructor
  · intro c hc
    rcases List.mem_append.1 hc with hc | hc
    · exact h.name_line c hc
    · rcases List.mem_cons.1 hc with rfl | hc
      · decide
      · rcases List.mem_cons.1 hc with rfl | hc
        · decide
        · exact h.value_line c hc
  · simp [Field.text]

theorem isHead_cons {start : Text} {fields : List Field} (hline : IsLine start) (hne : start ≠ [])
    (h : ∀ f ∈ fields, f.WellFormed) : IsHead (start :: fields.map Field.text) where
  ne_nil := List.cons_ne_nil _ _
  isLine s hs := by
    rcases List.mem_cons.1 hs with rfl | hs
    · exact hline
    · obtain ⟨f, hf, rfl⟩ := List.mem_map.1 hs
      exact (Field.isLine_text (h f hf)).1
  line_ne_nil s hs := by
    rcases List.mem_cons.1 hs with rfl | hs
    · exact hne
    · obtain ⟨f, hf, rfl⟩ := List.mem_map.1 hs
      exact (Field.isLine_text (h f hf)).2

/-! ## Requests -/

structure Request where
  method : Text
  target : Text
  fields : List Field
  body : Text
  deriving DecidableEq

def lower (c : UInt8) : UInt8 := if 65 ≤ c && c ≤ 90 then c + 32 else c

def isDigit (c : UInt8) : Bool := 48 ≤ c && c ≤ 57

/-- A number in decimal. -/
def decimal (s : Text) : Option ℕ :=
  if s.isEmpty || !s.all isDigit then none
  else some (s.foldl (fun n c => 10 * n + (c.toNat - 48)) 0)

/-- How long the body is; a message without the field has none. -/
def contentLength (fields : List Field) : Option ℕ :=
  match fields.filter fun f => f.name.map lower == ascii "content-length" with
  | [] => some 0
  | [f] => decimal f.value
  | _ => none

namespace Request

def startLine (r : Request) : Text := r.method ++ 32 :: (r.target ++ 32 :: ascii "HTTP/1.1")

def text (r : Request) : Text := render (r.startLine :: r.fields.map Field.text) r.body

structure WellFormed (r : Request) : Prop where
  method_plain : ∀ c ∈ r.method, c ≠ 32
  method_line : IsLine r.method
  target_plain : ∀ c ∈ r.target, c ≠ 32
  target_line : IsLine r.target
  fields : ∀ f ∈ r.fields, f.WellFormed
  length : contentLength r.fields = some r.body.length

variable {r : Request}

end Request

/-! ## Responses -/

structure Response where
  version : Text
  status : ℕ
  reason : Text
  fields : List Field
  body : Text

namespace Response

/-- The three digits of a status. -/
def statusText (status : ℕ) : Text :=
  [.ofNat (48 + status / 100), .ofNat (48 + status / 10 % 10), .ofNat (48 + status % 10)]

def startLine (r : Response) : Text := r.version ++ 32 :: (statusText r.status ++ 32 :: r.reason)

def text (r : Response) : Text := render (r.startLine :: r.fields.map Field.text) r.body

structure WellFormed (r : Response) : Prop where
  version_plain : ∀ c ∈ r.version, c ≠ 32
  version_line : IsLine r.version
  status_range : 100 ≤ r.status ∧ r.status < 1000
  reason_line : IsLine r.reason
  fields : ∀ f ∈ r.fields, f.WellFormed

variable {r : Response}

theorem isLine_statusText {status : ℕ} (h : status < 1000) : IsLine (statusText status) := by
  have hdigit : ∀ d < 10, UInt8.ofNat (48 + d) ≠ 13 ∧ UInt8.ofNat (48 + d) ≠ 10 := by decide
  intro c hc
  simp only [statusText, List.mem_cons, List.not_mem_nil, or_false] at hc
  rcases hc with rfl | rfl | rfl
  · exact hdigit _ (by omega)
  · exact hdigit _ (by omega)
  · exact hdigit _ (by omega)

theorem isHead (h : r.WellFormed) : IsHead (r.startLine :: r.fields.map Field.text) := by
  refine isHead_cons ?_ (by simp [startLine]) h.fields
  intro c hc
  unfold startLine at hc
  rcases List.mem_append.1 hc with hc | hc
  · exact h.version_line c hc
  · rcases List.mem_cons.1 hc with rfl | hc
    · decide
    · rcases List.mem_append.1 hc with hc | hc
      · exact isLine_statusText h.status_range.2 c hc
      · rcases List.mem_cons.1 hc with rfl | hc
        · decide
        · exact h.reason_line c hc

end Response

end Http

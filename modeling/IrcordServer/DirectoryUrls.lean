import Mathlib.Data.List.TakeWhile
import IrcordServer.DirectoryClient

/-!
# The parts of the directory's URL

The constructor finds host, port and path by the first colon and the first slash.  On a URL put
together from such parts it finds the parts again: neither character can come earlier than where
the parts put it, and the scheme cannot be mistaken for a host.
-/

namespace Ircord

/-! ## URLs by their parts -/

inductive UrlScheme
  | https | http
  /-- No scheme is written. -/
  | omitted
  deriving DecidableEq

namespace UrlScheme

def text : UrlScheme → Str
  | https => str "https://"
  | http => str "http://"
  | omitted => []

def useSsl : UrlScheme → Bool
  | http => false
  | _ => true

def defaultPort : UrlScheme → UInt16
  | http => 80
  | _ => 443

end UrlScheme

/-- A URL as the directory's configuration gives it. -/
structure DirectoryUrl where
  scheme : UrlScheme
  host : Str
  /-- The port, in decimal. -/
  port : Option Str
  path : Str
  host_ne : host ≠ []
  host_plain : ∀ c ∈ host, c ≠ ch ':' ∧ c ≠ ch '/'
  port_digits : ∀ digits ∈ port, ∀ c ∈ digits, isDigit c = true
  port_range : ∀ digits ∈ port, 1 ≤ digitsValue digits ∧ digitsValue digits ≤ 65535
  path_slash : path = [] ∨ ∃ rest, path = ch '/' :: rest

namespace DirectoryUrl

variable (u : DirectoryUrl)

def portText : Str := u.port.elim [] fun digits => ch ':' :: digits

/-- What follows the scheme. -/
def authority : Str := u.host ++ (u.portText ++ u.path)

def text : Str := u.scheme.text ++ u.authority

def portNumber : ℕ := u.port.elim u.scheme.defaultPort.toNat digitsValue

/-! ## Where the separators are -/

theorem findIdx?_eq_none {s : Str} {c : UInt8} (hs : ∀ d ∈ s, d ≠ c) :
    s.findIdx? (· == c) = none := by
  rw [List.findIdx?_eq_none_iff]
  simpa using hs

/-- A separator that is not in the first part is looked for in the second. -/
theorem findIdx?_append_of_notMem {s t : Str} {c : UInt8} (hs : ∀ d ∈ s, d ≠ c) :
    (s ++ t).findIdx? (· == c) = (t.findIdx? (· == c)).map (· + s.length) := by
  rw [List.findIdx?_append, findIdx?_eq_none hs, Option.none_or]

theorem isDigit_ne {c : UInt8} (hc : isDigit c = true) : c ≠ ch ':' ∧ c ≠ ch '/' := by
  constructor
  · rintro rfl
    exact absurd hc (by decide)
  · rintro rfl
    exact absurd hc (by decide)

theorem notMem_slash_portText : ∀ c ∈ u.portText, c ≠ ch '/' := by
  unfold portText
  cases hport : u.port with
  | none => simp
  | some digits =>
    intro c hc
    rcases List.mem_cons.1 hc with rfl | hc
    · decide
    · exact (isDigit_ne (u.port_digits digits hport c hc)).2

/-- The path begins at the first slash. -/
theorem findIdx?_slash : u.authority.findIdx? (· == ch '/') =
    if u.path = [] then none else some (u.host.length + u.portText.length) := by
  unfold authority
  rw [findIdx?_append_of_notMem fun c hc => (u.host_plain c hc).2,
    findIdx?_append_of_notMem u.notMem_slash_portText]
  rcases u.path_slash with hpath | ⟨rest, hpath⟩
  · rw [hpath, if_pos rfl]
    rfl
  · rw [hpath, if_neg (List.cons_ne_nil _ _), List.findIdx?_cons]
    simp [Nat.add_comm]

/-- With a port, the first colon stands in front of it. -/
theorem findIdx?_colon_of_port {digits : Str} (hport : u.port = some digits) :
    u.authority.findIdx? (· == ch ':') = some u.host.length := by
  unfold authority portText
  rw [findIdx?_append_of_notMem fun c hc => (u.host_plain c hc).1, hport]
  simp [List.findIdx?_cons]

/-- Without one, a colon comes behind the beginning of the path, if at all. -/
theorem findIdx?_colon_of_noPort (hport : u.port = none) {p : ℕ}
    (hcolon : u.authority.findIdx? (· == ch ':') = some p) :
    u.path ≠ [] ∧ u.host.length < p := by
  unfold authority portText at hcolon
  rw [findIdx?_append_of_notMem fun c hc => (u.host_plain c hc).1, hport, Option.elim_none,
    List.nil_append] at hcolon
  rcases u.path_slash with hpath | ⟨rest, hpath⟩
  · rw [hpath] at hcolon
    cases hcolon
  · rw [hpath, List.findIdx?_cons, if_neg (by decide)] at hcolon
    refine ⟨by simp [hpath], ?_⟩
    rw [Option.map_map, Option.map_eq_some_iff] at hcolon
    obtain ⟨k, -, rfl⟩ := hcolon
    simp only [Function.comp_apply]
    omega

/-! ## The scheme -/

/-- The part in front of the first separator can be dropped. -/
theorem dropWhile_plain {s t : Str} (hs : ∀ c ∈ s, c ≠ ch ':' ∧ c ≠ ch '/')
    (ht : ∀ c, t.head? = some c → c = ch ':' ∨ c = ch '/') :
    (s ++ t).dropWhile (fun c => c != ch ':' && c != ch '/') = t := by
  rw [List.dropWhile_append_of_pos (by simpa using hs)]
  cases t with
  | nil => rfl
  | cons c t => rcases ht c rfl with rfl | rfl <;> rfl

theorem head?_portText_append {c : UInt8} (hc : (u.portText ++ u.path).head? = some c) :
    c = ch ':' ∨ c = ch '/' := by
  unfold portText at hc
  cases hport : u.port with
  | some digits =>
    rw [hport] at hc
    exact Or.inl (Option.some.inj hc).symm
  | none =>
    rw [hport] at hc
    rcases u.path_slash with hpath | ⟨rest, hpath⟩
    · rw [hpath] at hc
      cases hc
    · rw [hpath] at hc
      exact Or.inr (Option.some.inj hc).symm

/-- No host without colons and slashes looks like a scheme with its two slashes. -/
theorem authority_ne_scheme {name more : Str} (hname : ∀ c ∈ name, c ≠ ch ':' ∧ c ≠ ch '/') :
    u.authority ≠ name ++ ch ':' :: ch '/' :: more := by
  intro heq
  have htail : u.portText ++ u.path = ch ':' :: ch '/' :: more := by
    have hleft := dropWhile_plain u.host_plain fun c => u.head?_portText_append
    have hright := dropWhile_plain (t := ch ':' :: ch '/' :: more) hname (by simp)
    rw [← hleft, ← hright]
    exact congrArg _ heq
  unfold portText at htail
  cases hport : u.port with
  | some digits =>
    -- the first digit of the port would be a slash
    rw [hport, Option.elim_some, List.cons_append] at htail
    have hdigits := (List.cons.inj htail).2
    cases digits with
    | nil =>
      have hrange := (u.port_range [] hport).1
      exact absurd hrange (by decide)
    | cons d ds =>
      obtain ⟨rfl, -⟩ := List.cons.inj hdigits
      exact (isDigit_ne (u.port_digits _ hport _ List.mem_cons_self)).2 rfl
  | none =>
    rw [hport] at htail
    rcases u.path_slash with hpath | ⟨rest, hpath⟩
    · rw [hpath] at htail
      cases htail
    · rw [hpath] at htail
      exact absurd (List.cons.inj htail).1 (by decide)

/-- Nothing that begins like the text begins with a scheme that is not written. -/
theorem take_authority_ne {name : Str} (hname : ∀ c ∈ name, c ≠ ch ':' ∧ c ≠ ch '/') {n : ℕ} :
    u.authority.take n ≠ name ++ [ch ':', ch '/', ch '/'] := by
  intro htake
  have hwhole := List.take_append_drop n u.authority
  rw [htake, List.append_assoc] at hwhole
  exact u.authority_ne_scheme hname hwhole.symm

theorem splitScheme_text :
    DirectoryClient.splitScheme u.text =
      (u.scheme.useSsl, u.scheme.defaultPort, u.authority) := by
  have hhttps : str "https://" = str "https" ++ [ch ':', ch '/', ch '/'] := by decide
  have hhttp : str "http://" = str "http" ++ [ch ':', ch '/', ch '/'] := by decide
  unfold text DirectoryClient.splitScheme
  cases hscheme : u.scheme with
  | https =>
    have htake : (str "https://" ++ u.authority).take 8 = str "https://" :=
      List.take_left' (by decide)
    have hdrop : (str "https://" ++ u.authority).drop 8 = u.authority :=
      List.drop_left' (by decide)
    simp only [UrlScheme.text, htake, hdrop, if_true]
    rfl
  | http =>
    have htake : (str "http://" ++ u.authority).take 7 = str "http://" :=
      List.take_left' (by decide)
    have hdrop : (str "http://" ++ u.authority).drop 7 = u.authority :=
      List.drop_left' (by decide)
    have hne : (str "http://" ++ u.authority).take 8 ≠ str "https://" := by
      intro heq
      have hseven := congrArg (List.take 7) heq
      rw [List.take_take, show min 7 8 = 7 by decide, htake] at hseven
      exact absurd hseven (by decide)
    simp only [UrlScheme.text, if_neg hne, htake, hdrop, if_true]
    rfl
  | omitted =>
    rw [UrlScheme.text, List.nil_append, hhttps,
      if_neg (u.take_authority_ne (by decide +kernel)), hhttp,
      if_neg (u.take_authority_ne (by decide +kernel))]
    rfl

/-! ## Host, port and path -/

/-- Where the host and its port end. -/
theorem portEnd_eq :
    (if u.path = [] then none else some (u.host.length + u.portText.length)).getD
      u.authority.length = u.host.length + u.portText.length := by
  split_ifs with hpath
  · simp [authority, hpath]
  · rfl

theorem splitHost_of_port {digits : Str} (hport : u.port = some digits) (defaultPort : UInt16) :
    DirectoryClient.splitHost u.authority defaultPort
        (if u.path = [] then none else some (u.host.length + u.portText.length)) =
      (u.host, .ofNat (digitsValue digits)) := by
  have htext : u.portText = ch ':' :: digits := by
    unfold portText
    rw [hport]
    rfl
  have hbefore : (if u.path = [] then none else some (u.host.length + u.portText.length)).all
      (fun p => decide (u.host.length < p)) = true := by
    split_ifs
    · rfl
    · simp [htext]
  have hhost : u.authority.take u.host.length = u.host := List.take_left
  have hdigits : (u.authority.drop (u.host.length + 1)).take digits.length = digits := by
    have hparts : u.authority = (u.host ++ [ch ':']) ++ (digits ++ u.path) := by
      simp [authority, htext]
    rw [hparts, List.drop_left' (by simp), List.take_left]
  have hne : digits ≠ [] := by
    rintro rfl
    exact absurd (u.port_range [] hport).1 (by decide)
  have hrange := (u.port_range digits hport).2
  have hvalue : stoi digits = some (digitsValue digits : ℤ) :=
    stoi_of_digits hne (u.port_digits digits hport) (by omega)
  have hcast : UInt16.ofInt (digitsValue digits : ℤ) = .ofNat (digitsValue digits) := by
    unfold UInt16.ofInt
    congr 1
    omega
  have hcount : u.host.length + u.portText.length - u.host.length - 1 = digits.length := by
    simp [htext]
  unfold DirectoryClient.splitHost
  rw [u.findIdx?_colon_of_port hport]
  simp only [hbefore, if_true, hhost, u.portEnd_eq, hcount, hdigits, hvalue, hcast]

theorem splitHost_of_noPort (hport : u.port = none) (defaultPort : UInt16) :
    DirectoryClient.splitHost u.authority defaultPort
        (if u.path = [] then none else some (u.host.length + u.portText.length)) =
      (u.host, defaultPort) := by
  have htext : u.portText.length = 0 := by
    unfold portText
    rw [hport]
    rfl
  have hhost : u.authority.take (u.host.length + u.portText.length) = u.host := by
    rw [htext, Nat.add_zero]
    exact List.take_left
  unfold DirectoryClient.splitHost
  cases hcolon : u.authority.findIdx? (· == ch ':') with
  | none => simp only [u.portEnd_eq, hhost]
  | some p =>
    -- a colon in the path is behind its slash
    obtain ⟨hpath, hlt⟩ := u.findIdx?_colon_of_noPort hport hcolon
    have hafter : (if u.path = [] then none else some (u.host.length + u.portText.length)).all
        (fun q => decide (p < q)) = false := by
      rw [if_neg hpath, Option.all_some, decide_eq_false_iff_not]
      omega
    simp only [hafter, Bool.false_eq_true, if_false, u.portEnd_eq, hhost]

theorem drop_authority :
    ((if u.path = [] then none else some (u.host.length + u.portText.length)).elim []
      fun p => u.authority.drop p) = u.path := by
  split_ifs with hpath
  · exact hpath.symm
  · have hparts : u.authority = (u.host ++ u.portText) ++ u.path := (List.append_assoc _ _ _).symm
    rw [Option.elim_some, hparts, List.drop_left' List.length_append]

/-- The constructor takes a URL apart into the parts it was put together from. -/
theorem new_of_url (config : ServerConfig) :
    let client := DirectoryClient.new { config with directoryUrl := u.text }
    client.directoryHost = u.host ∧ client.directoryPort.toNat = u.portNumber ∧
      client.directoryPath = u.path ∧ client.directoryUseSsl = u.scheme.useSsl := by
  have hne : u.text.isEmpty = false := by
    simp [text, authority, u.host_ne]
  intro client
  have hclient : client = DirectoryClient.new { config with directoryUrl := u.text } := rfl
  unfold DirectoryClient.new at hclient
  simp only [hne, Bool.false_eq_true, if_false, u.splitScheme_text, u.findIdx?_slash,
    u.drop_authority] at hclient
  cases hport : u.port with
  | some digits =>
    rw [u.splitHost_of_port hport] at hclient
    have hrange := (u.port_range digits hport).2
    rw [hclient]
    refine ⟨rfl, ?_, rfl, rfl⟩
    rw [portNumber, hport, Option.elim_some]
    exact Nat.mod_eq_of_lt (by omega)
  | none =>
    rw [u.splitHost_of_noPort hport] at hclient
    rw [hclient]
    refine ⟨rfl, ?_, rfl, rfl⟩
    rw [portNumber, hport]
    rfl

/-- A URL with all its parts, and a colon in the path. -/
def localhostUrl : DirectoryUrl where
  scheme := .http
  host := str "localhost"
  port := some (str "8080")
  path := str "/a:b"
  host_ne := by decide +kernel
  host_plain := by decide +kernel
  port_digits := by decide +kernel
  port_range := by decide
  path_slash := Or.inr ⟨str "a:b", by decide⟩

theorem new_of_url_localhost :
    let client := DirectoryClient.new { directoryUrl := localhostUrl.text }
    client.directoryHost = str "localhost" ∧ client.directoryPort.toNat = 8080 ∧
      client.directoryPath = str "/a:b" ∧ client.directoryUseSsl = false := by
  have hport : localhostUrl.portNumber = 8080 := by decide
  rw [← hport]
  exact new_of_url localhostUrl {}

end DirectoryUrl

end Ircord

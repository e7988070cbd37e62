import Mathlib.Data.Int.Notation
import Mathlib.Tactic.Common
import IrcordServer.ConfigLoader

/-!
# The configured port

`load` narrows `server.port` from 64 to 16 bits, and `validate` looks at what is left.  The number
in the file reaches the configuration in one place only (`load_withPort`), so whether a port is
refused depends on its last 16 bits.
-/

namespace Ircord

namespace ConfigLoader

/-! ## The number in the file -/

/-- The table with a function applied to the entry of a key. -/
def modifyEntry (key : Str) (f : TomlValue → TomlValue) (entries : TomlTable) : TomlTable :=
  entries.map fun e => if e.1 = key then (e.1, f e.2) else e

theorem lookup_modifyEntry_self (key : Str) (f : TomlValue → TomlValue) (entries : TomlTable) :
    (modifyEntry key f entries).lookup key = (entries.lookup key).map f := by
  induction entries with
  | nil => rfl
  | cons e entries ih =>
    obtain ⟨k, v⟩ := e
    rw [modifyEntry, List.map_cons, ← modifyEntry]
    by_cases hk : k = key
    · simp [hk]
    · have hne : (key == k) = false := by simpa using fun e : key = k => hk e.symm
      simp [hk, List.lookup_cons, hne, ih]

theorem lookup_modifyEntry_of_ne {key other : Str} (hne : other ≠ key) (f : TomlValue → TomlValue)
    (entries : TomlTable) :
    (modifyEntry key f entries).lookup other = entries.lookup other := by
  induction entries with
  | nil => rfl
  | cons e entries ih =>
    obtain ⟨k, v⟩ := e
    rw [modifyEntry, List.map_cons, ← modifyEntry]
    by_cases hk : k = key
    · subst hk
      have hother : (other == k) = false := by simpa using hne
      simp [List.lookup_cons, hother, ih]
    · simp [hk, List.lookup_cons, ih]

/-- The server section with another port. -/
def sectionWithPort (p : Int64) : TomlValue → TomlValue
  | .table entries => .table (modifyEntry (str "port") (fun _ => .integer p) entries)
  | v => v

/-- The file with another number as `server.port`. -/
def withPort (data : TomlTable) (p : Int64) : TomlTable :=
  modifyEntry (str "server") (sectionWithPort p) data

/-! ## Where it goes -/

/-- The configuration with another port. -/
def setPort (p : Int64) (config : ServerConfig) : ServerConfig := { config with port := toUInt16 p }

section Load

variable (what : TomlType → TomlValue → Str)

/-- A section is read the same way for every port. -/
def KeepsPort (read : TomlValue → ServerConfig → Except ConfigError ServerConfig) : Prop :=
  ∀ p value config, read value (setPort p config) = (read value config).map (setPort p)

theorem readSection_withPort {data : TomlTable} {key : Str} (hkey : key ≠ str "server")
    {read : TomlValue → ServerConfig → Except ConfigError ServerConfig} (hread : KeepsPort read)
    (p : Int64) (config : ServerConfig) :
    readSection (withPort data p) key read (setPort p config) =
      (readSection data key read config).map (setPort p) := by
  unfold readSection
  rw [withPort, lookup_modifyEntry_of_ne hkey]
  cases data.lookup key with
  | none => rfl
  | some value => exact hread p value config

theorem keepsPort_loadMotd : KeepsPort (loadMotd what) := by
  intro p motd config
  cases motd with
  | array lines =>
    simp only [loadMotd]
    cases lines.mapM (getString what) <;> rfl
  | boolean | integer | string | table | other => rfl

theorem keepsPort_loadHttpApi : KeepsPort (loadHttpApi what) := by
  intro p http config
  unfold loadHttpApi
  cases getStrings what http (str "api_keys") <;> rfl

theorem keepsPort_loadAdmin : KeepsPort (loadAdmin what) := by
  intro p admin config
  unfold loadAdmin
  cases getStrings what admin (str "auto_join_channels") with
  | error e => rfl
  | ok autoJoin => cases getStrings what admin (str "additional_reserved") <;> rfl

theorem loadTls_withPort (data : TomlTable) (p : Int64) (config : ServerConfig) :
    loadTls what (withPort data p) (setPort p config) =
      (loadTls what data config).map (setPort p) := by
  unfold loadTls
  rw [withPort, lookup_modifyEntry_of_ne (by decide)]
  cases data.lookup (str "tls") with
  | none => rfl
  | some tls =>
    dsimp only
    cases getRequired what (getString what) tls (str "cert_file") with
    | error e => rfl
    | ok certFile => cases getRequired what (getString what) tls (str "key_file") <;> rfl

/-- The settings other than the port are found where they were. -/
theorem find_sectionWithPort {α : Type} (get : TomlValue → Except Str α) {key : Str}
    (hkey : key ≠ str "port") (p : Int64) (server : TomlValue) :
    find what get (sectionWithPort p server) key = find what get server key := by
  cases server with
  | table entries =>
    simp only [sectionWithPort, find]
    rw [lookup_modifyEntry_of_ne hkey]
  | boolean | integer | string | array | other => rfl

theorem getRequired_sectionWithPort {α : Type} (get : TomlValue → Except Str α) {key : Str}
    (hkey : key ≠ str "port") (p : Int64) (server : TomlValue) :
    getRequired what get (sectionWithPort p server) key = getRequired what get server key := by
  unfold getRequired
  rw [find_sectionWithPort what get hkey]

theorem getOptional_sectionWithPort {α : Type} (get : TomlValue → Except Str α) {key : Str}
    (hkey : key ≠ str "port") (p : Int64) (server : TomlValue) (defaultVal : α) :
    getOptional what get (sectionWithPort p server) key defaultVal =
      getOptional what get server key defaultVal := by
  unfold getOptional
  rw [find_sectionWithPort what get hkey]

/-- Either the section has no port, or the number put there is found. -/
theorem find_port_sectionWithPort (server : TomlValue) :
    (∃ e, ∀ p, find what (getInteger what) (sectionWithPort p server) (str "port") = .error e) ∨
      ∀ p, find what (getInteger what) (sectionWithPort p server) (str "port") = .ok p := by
  cases server with
  | table entries =>
    have hlookup := fun p =>
      lookup_modifyEntry_self (str "port") (fun _ => TomlValue.integer p) entries
    simp only [find, sectionWithPort, hlookup]
    cases entries.lookup (str "port") with
    | none => exact Or.inl ⟨.outOfRange, fun _ => rfl⟩
    | some v => exact Or.inr fun _ => rfl
  | boolean b => exact Or.inl ⟨.typeError (what .table (.boolean b)), fun _ => rfl⟩
  | integer i => exact Or.inl ⟨.typeError (what .table (.integer i)), fun _ => rfl⟩
  | string s => exact Or.inl ⟨.typeError (what .table (.string s)), fun _ => rfl⟩
  | array elems => exact Or.inl ⟨.typeError (what .table (.array elems)), fun _ => rfl⟩
  | other => exact Or.inl ⟨.typeError (what .table .other), fun _ => rfl⟩

/-- The server section is read up to its port. -/
theorem loadServer_withPort (data : TomlTable) (config₀ : ServerConfig) :
    ∃ loaded : Except ConfigError ServerConfig, ∀ p,
      loadServer what (withPort data p) config₀ = loaded.map (setPort p) := by
  unfold loadServer withPort
  simp only [lookup_modifyEntry_self]
  cases data.lookup (str "server") with
  | none => exact ⟨.error _, fun p => rfl⟩
  | some server =>
    have hhost := getRequired_sectionWithPort what (getString what)
      (show str "host" ≠ str "port" by decide)
    simp only [Option.map_some, hhost,
      getOptional_sectionWithPort what _ (show str "log_level" ≠ str "port" by decide),
      getOptional_sectionWithPort what _ (show str "max_connections" ≠ str "port" by decide),
      getOptional_sectionWithPort what _ (show str "public" ≠ str "port" by decide)]
    cases getRequired what (getString what) server (str "host") with
    | error e => exact ⟨.error e, fun p => rfl⟩
    | ok host =>
      rcases find_port_sectionWithPort what server with ⟨e, hport⟩ | hport
      · unfold getRequired
        simp only [hport]
        cases e with
        | outOfRange => exact ⟨.error _, fun p => rfl⟩
        | typeError text => exact ⟨.error _, fun p => rfl⟩
      · unfold getRequired
        simp only [hport]
        refine ⟨.ok { config₀ with
          host := host
          logLevel := getOptional what (getString what) server (str "log_level") (str "info")
          maxConnections := getOptional what (getInt what) server (str "max_connections") 100
          isPublic := getOptional what (getBool what) server (str "public") false }, fun p => rfl⟩

theorem bind_map {α β ε : Type} {x : Except ε α} {f : α → α} {g g' : α → Except ε β} {h : β → β}
    (hg : ∀ a, g (f a) = (g' a).map h) : (x.map f >>= g) = (x >>= g').map h := by
  cases x with
  | error e => rfl
  | ok a => exact hg a

theorem loadSections_withPort (data : TomlTable) (p : Int64) (config : ServerConfig) :
    loadSections what (withPort data p) (setPort p config) =
      (loadSections what data config).map (setPort p) := by
  unfold loadSections
  rw [loadTls_withPort]
  refine bind_map fun config => ?_
  rw [readSection_withPort (by decide) (show KeepsPort (loadDatabase what) from fun _ _ _ => rfl)]
  refine bind_map fun config => ?_
  rw [readSection_withPort (by decide) (show KeepsPort (loadLimits what) from fun _ _ _ => rfl)]
  refine bind_map fun config => ?_
  rw [readSection_withPort (by decide) (show KeepsPort (loadSecurity what) from fun _ _ _ => rfl)]
  refine bind_map fun config => ?_
  rw [readSection_withPort (by decide) (show KeepsPort (loadAntivirus what) from fun _ _ _ => rfl)]
  refine bind_map fun config => ?_
  rw [readSection_withPort (by decide) (keepsPort_loadMotd what)]
  refine bind_map fun config => ?_
  rw [readSection_withPort (by decide) (show KeepsPort (loadDirectory what) from fun _ _ _ => rfl)]
  refine bind_map fun config => ?_
  rw [readSection_withPort (by decide) (keepsPort_loadHttpApi what)]
  refine bind_map fun config => ?_
  exact readSection_withPort (by decide) (keepsPort_loadAdmin what) p config

/-- Files that differ in the port only are loaded alike. -/
theorem load_withPort (data : TomlTable) :
    ∃ loaded : Except ConfigError ServerConfig, ∀ p,
      load what (withPort data p) = loaded.map (setPort p) := by
  obtain ⟨server, hserver⟩ := loadServer_withPort what data {}
  refine ⟨server >>= loadSections what data, fun p => ?_⟩
  unfold load
  rw [hserver]
  exact bind_map (loadSections_withPort what data p)

end Load

/-! ## What the validation sees -/

/-- The conditions of `validate` other than the one on the port. -/
structure ValidApartFromPort (config : ServerConfig) : Prop where
  host : config.host.isEmpty = false
  certFile : config.tlsCertFile.isEmpty = false
  keyFile : config.tlsKeyFile.isEmpty = false
  maxMessageBytes : ¬ (config.maxMessageBytes = 0 ∨ config.maxMessageBytes > 1024 * 1024)
  pingInterval : ¬ (config.pingIntervalSec ≤ 0 ∨ config.pingIntervalSec > 300)
  pingTimeout : ¬ (config.pingTimeoutSec ≤ 0 ∨ config.pingTimeoutSec > 600)

theorem validate_eq_ok_iff (config : ServerConfig) :
    validate config = .ok () ↔ config.port ≠ 0 ∧ ValidApartFromPort config := by
  constructor
  · intro hvalid
    unfold validate at hvalid
    split_ifs at hvalid with hhost hport hcert hkey hbytes hinterval htimeout
    exact ⟨hport, by simpa using hhost, by simpa using hcert, by simpa using hkey, hbytes,
      hinterval, htimeout⟩
  · rintro ⟨hport, hhost, hcert, hkey, hbytes, hinterval, htimeout⟩
    unfold validate
    rw [if_neg (by simp [hhost]), if_neg hport, if_neg (by simp [hcert]), if_neg (by simp [hkey]),
      if_neg hbytes, if_neg hinterval, if_neg htimeout]

theorem validApartFromPort_setPort {p : Int64} {config : ServerConfig} :
    ValidApartFromPort (setPort p config) ↔ ValidApartFromPort config :=
  ⟨fun h => ⟨h.host, h.certFile, h.keyFile, h.maxMessageBytes, h.pingInterval, h.pingTimeout⟩,
    fun h => ⟨h.host, h.certFile, h.keyFile, h.maxMessageBytes, h.pingInterval, h.pingTimeout⟩⟩

theorem loadValidated_eq_ok_iff {what : TomlType → TomlValue → Str} {data : TomlTable}
    {config : ServerConfig} :
    loadValidated what data = .ok config ↔
      load what data = .ok config ∧ validate config = .ok () := by
  unfold loadValidated
  cases load what data with
  | error e => simp [bind, Except.bind]
  | ok loaded =>
    cases hcheck : validate loaded with
    | error e =>
      simp only [bind, Except.bind, hcheck, reduceCtorEq, Except.ok.injEq, false_iff, not_and]
      rintro rfl hok
      rw [hcheck] at hok
      cases hok
    | ok u =>
      simp only [bind, Except.bind, hcheck, pure, Except.pure, Except.ok.injEq]
      constructor
      · rintro rfl
        exact ⟨rfl, hcheck⟩
      · exact fun h => h.1

/-- The narrowing keeps the last 16 bits. -/
theorem toNat_toUInt16 (p : Int64) : ((toUInt16 p).toNat : ℤ) = p.toInt % 65536 := by
  have hnarrow : (toUInt16 p).toNat = p.toUInt64.toNat % 65536 := UInt64.toNat_toUInt16 p.toUInt64
  have hint : p.toInt = p.toBitVec.toInt := rfl
  have hnat : p.toBitVec.toNat = p.toUInt64.toNat := rfl
  rw [hnarrow, hint, BitVec.toInt_eq_toNat_cond, hnat]
  split_ifs <;> omega

/-- The file is refused, or its number is the port and a port number. -/
def PortKept (what : TomlType → TomlValue → Str) (data : TomlTable) (p : Int64) : Prop :=
  ∀ config, loadValidated what (withPort data p) = .ok config →
    (config.port.toNat : ℤ) = p.toInt ∧ 1 ≤ p.toInt ∧ p.toInt ≤ 65535

/-- In a file that is valid apart from its port, a number is refused or kept exactly when it is a
port number or a multiple of 65536. -/
theorem portKept_iff (what : TomlType → TomlValue → Str) (data : TomlTable)
    (hvalid : ∃ q config, loadValidated what (withPort data q) = .ok config) (p : Int64) :
    PortKept what data p ↔ (1 ≤ p.toInt ∧ p.toInt ≤ 65535) ∨ p.toInt % 65536 = 0 := by
  obtain ⟨loaded, hloaded⟩ := load_withPort what data
  obtain ⟨q, config', hconfig'⟩ := hvalid
  rw [loadValidated_eq_ok_iff, hloaded, validate_eq_ok_iff] at hconfig'
  have hnarrow := toNat_toUInt16 p
  have hzero : toUInt16 p = 0 ↔ p.toInt % 65536 = 0 := by
    rw [← hnarrow, ← UInt16.toNat_inj]
    simp
  cases loaded with
  | error e => cases hconfig'.1
  | ok config =>
    obtain ⟨hconfig, -, hrest⟩ := hconfig'
    cases hconfig
    rw [validApartFromPort_setPort] at hrest
    -- what is loaded with `p` is this configuration with the port narrowed
    have hresult : ∀ config'', loadValidated what (withPort data p) = .ok config'' ↔
        config'' = setPort p config ∧ toUInt16 p ≠ 0 := by
      intro config''
      rw [loadValidated_eq_ok_iff, hloaded, validate_eq_ok_iff]
      constructor
      · rintro ⟨hload, hport, -⟩
        cases hload
        exact ⟨rfl, hport⟩
      · rintro ⟨rfl, hport⟩
        exact ⟨rfl, hport, validApartFromPort_setPort.2 hrest⟩
    constructor
    · intro hkept
      by_cases hport : toUInt16 p = 0
      · exact Or.inr (hzero.1 hport)
      · exact Or.inl (hkept _ ((hresult _).2 ⟨rfl, hport⟩)).2
    · intro hcondition config'' hok
      obtain ⟨rfl, hport⟩ := (hresult config'').1 hok
      rw [Ne, hzero] at hport
      have hrange := hcondition.resolve_right hport
      have hkeep : ((setPort p config).port.toNat : ℤ) = p.toInt := by
        show ((toUInt16 p).toNat : ℤ) = p.toInt
        omega
      exact ⟨hkeep, hrange⟩

/-- A file with the required settings only. -/
def smallFile : TomlTable :=
  [(str "server", .table [(str "host", .string (str "0.0.0.0")), (str "port", .integer 6697)]),
    (str "tls", .table [(str "cert_file", .string (str "a")), (str "key_file", .string (str "b"))])]

theorem portKept_smallFile : PortKept (fun _ _ => []) smallFile 65535 ↔
    (1 ≤ (65535 : Int64).toInt ∧ (65535 : Int64).toInt ≤ 65535) ∨
      (65535 : Int64).toInt % 65536 = 0 :=
  portKept_iff (fun _ _ => []) smallFile ⟨6697, _, rfl⟩ 65535

/-- The port 65537 is accepted, as port 1. -/
theorem not_portKept_65537 :
    ¬ ∀ (what : TomlType → TomlValue → Str) (data : TomlTable),
      (∃ q config, loadValidated what (withPort data q) = .ok config) →
        ∀ p, PortKept what data p := by
  intro h
  have hkept := h (fun _ _ => []) smallFile ⟨6697, _, rfl⟩ 65537 _ rfl
  exact absurd hkept.2.2 (by decide)

end ConfigLoader

end Ircord

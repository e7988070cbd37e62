import Mathlib.Tactic.Common
import IrcordServer.ConfigLoader

/-!
# What a configuration file sets

A file sets a setting when it has its value, or leaves it out and it is the one of a fresh
`ServerConfig`.  What is loaded is what the file sets (`load_of_fileSets`), so the defaults of
`get_optional` are those of the structure, and every configuration can be written down.
-/

namespace Ircord

/-- `ServerConfig config;` -/
abbrev ServerConfig.initial : ServerConfig := {}

open ServerConfig (initial)

namespace ConfigLoader

variable {what : TomlType → TomlValue → Str}

/-! ## One setting -/

def ofInt (i : Int32) : TomlValue := .integer i.toInt64

def ofPort (port : UInt16) : Int64 := port.toUInt64.toInt64

def ofStrings (l : List Str) : TomlValue := .array (l.map .string)

/-- The section has this setting, or leaves it out. -/
def Sets {α : Type} (encode : α → TomlValue) (entries : TomlTable) (key : String) (a default : α) :
    Prop :=
  entries.lookup (str key) = some (encode a) ∨ entries.lookup (str key) = none ∧ a = default

section Setting

variable {entries : TomlTable} {key : String}

theorem toUInt16_ofPort (port : UInt16) : toUInt16 (ofPort port) = port := by
  unfold toUInt16 ofPort
  rw [UInt64.toUInt64_toInt64, UInt16.toUInt16_toUInt64]

theorem getInt_ofInt (i : Int32) : getInt what (ofInt i) = .ok i :=
  congrArg Except.ok (Int32.toInt32_toInt64 i)

theorem getRequired_of_lookup {α : Type} {get : TomlValue → Except Str α} {v : TomlValue} {a : α}
    (h : entries.lookup (str key) = some v) (hget : get v = .ok a) :
    getRequired what get (.table entries) (str key) = .ok a := by
  unfold getRequired find
  simp only [h, hget]
  rfl

theorem getRequired_string {a : Str} (h : entries.lookup (str key) = some (.string a)) :
    getRequired what (getString what) (.table entries) (str key) = .ok a :=
  getRequired_of_lookup h rfl

theorem getRequired_integer {a : Int64} (h : entries.lookup (str key) = some (.integer a)) :
    getRequired what (getInteger what) (.table entries) (str key) = .ok a :=
  getRequired_of_lookup h rfl

theorem getOptional_of_sets {α : Type} {get : TomlValue → Except Str α} {encode : α → TomlValue}
    {a default : α} (hget : ∀ a, get (encode a) = .ok a) (h : Sets encode entries key a default) :
    getOptional what get (.table entries) (str key) default = a := by
  unfold getOptional find
  rcases h with h | ⟨h, rfl⟩
  · simp only [h, hget]
    rfl
  · simp only [h]

theorem getString_of_sets {a default : Str} (h : Sets .string entries key a default) :
    getOptional what (getString what) (.table entries) (str key) default = a :=
  getOptional_of_sets (fun _ => rfl) h

theorem getInteger_of_sets {a default : Int64} (h : Sets .integer entries key a default) :
    getOptional what (getInteger what) (.table entries) (str key) default = a :=
  getOptional_of_sets (fun _ => rfl) h

theorem getInt_of_sets {a default : Int32} (h : Sets ofInt entries key a default) :
    getOptional what (getInt what) (.table entries) (str key) default = a :=
  getOptional_of_sets getInt_ofInt h

theorem getBool_of_sets {a default : Bool} (h : Sets .boolean entries key a default) :
    getOptional what (getBool what) (.table entries) (str key) default = a :=
  getOptional_of_sets (fun _ => rfl) h

theorem getStrings_of_sets {a : List Str} (h : Sets ofStrings entries key a []) :
    getStrings what (.table entries) (str key) = .ok a := by
  unfold getStrings
  rcases h with h | ⟨h, rfl⟩
  · have hread : (a.map TomlValue.string).filterMap
        (fun v => (getString what v).toOption) = a := by
      rw [List.filterMap_map]
      exact List.filterMap_some
    simp only [h, ofStrings, hread]
  · simp only [h]

end Setting

/-! ## One section -/

section Parts

variable (config c : ServerConfig)

/-- `c` with the `[server]` settings of `config`. -/
def withServer : ServerConfig :=
  { c with
    host := config.host
    port := config.port
    logLevel := config.logLevel
    maxConnections := config.maxConnections
    isPublic := config.isPublic }

def withTls : ServerConfig :=
  { c with
    tlsCertFile := config.tlsCertFile
    tlsKeyFile := config.tlsKeyFile }

def withDatabase : ServerConfig := { c with dbPath := config.dbPath }

def withLimits : ServerConfig :=
  { c with
    maxMessageBytes := config.maxMessageBytes
    pingIntervalSec := config.pingIntervalSec
    pingTimeoutSec := config.pingTimeoutSec
    msgRatePerSec := config.msgRatePerSec
    connRatePerMin := config.connRatePerMin
    commandsPerMin := config.commandsPerMin
    joinsPerMin := config.joinsPerMin
    abuseThreshold := config.abuseThreshold
    abuseWindowMin := config.abuseWindowMin
    banDurationMin := config.banDurationMin }

def withSecurity : ServerConfig := { c with fileEncryptionKey := config.fileEncryptionKey }

def withAntivirus : ServerConfig :=
  { c with
    clamavSocket := config.clamavSocket
    clamavHost := config.clamavHost
    clamavPort := config.clamavPort }

def withMotd : ServerConfig := { c with motd := config.motd }

def withDirectory : ServerConfig :=
  { c with
    directoryEnabled := config.directoryEnabled
    directoryUrl := config.directoryUrl
    directoryPingIntervalSec := config.directoryPingIntervalSec
    serverName := config.serverName
    serverDescription := config.serverDescription }

def withHttpApi : ServerConfig :=
  { c with
    httpApiEnabled := config.httpApiEnabled
    httpApiPort := config.httpApiPort
    httpApiBind := config.httpApiBind
    httpApiKeys := config.httpApiKeys
    httpApiCors := config.httpApiCors
    httpApiRateLimit := config.httpApiRateLimit
    httpApiRateLimitRequests := config.httpApiRateLimitRequests }

def withAdmin : ServerConfig :=
  { c with
    adminEnabled := config.adminEnabled
    adminKeyFile := config.adminKeyFile
    adminAutoJoin := config.adminAutoJoin
    adminAdditionalReserved := config.adminAdditionalReserved
    adminTuiSocket := config.adminTuiSocket }

end Parts

/-- The file has this section as a table, or leaves it out. -/
def SetsSection (data : TomlTable) (key : String) (sets : TomlTable → Prop) : Prop :=
  (∃ entries, data.lookup (str key) = some (.table entries) ∧ sets entries) ∨
    data.lookup (str key) = none ∧ sets []

/-- A section that is left out is read as an empty one. -/
theorem readSection_of_sets {data : TomlTable} {key : String} {sets : TomlTable → Prop}
    {read : TomlValue → ServerConfig → Except ConfigError ServerConfig} {c c' c₀ : ServerConfig}
    (h : SetsSection data key sets)
    (hread : ∀ entries, sets entries → read (.table entries) c = .ok c')
    (hempty : read (.table []) c = .ok c₀) (hc : c₀ = c) :
    readSection data (str key) read c = .ok c' := by
  unfold readSection
  rcases h with ⟨entries, h, hsets⟩ | ⟨h, hsets⟩
  · rw [h]
    exact hread entries hsets
  · rw [h, ← hread [] hsets, hempty, hc]

section Sections

variable {config : ServerConfig} {entries : TomlTable}

structure SetsServer (config : ServerConfig) (entries : TomlTable) : Prop where
  host : entries.lookup (str "host") = some (.string config.host)
  port : entries.lookup (str "port") = some (.integer (ofPort config.port))
  logLevel : Sets .string entries "log_level" config.logLevel initial.logLevel
  maxConnections : Sets ofInt entries "max_connections" config.maxConnections
    initial.maxConnections
  isPublic : Sets .boolean entries "public" config.isPublic initial.isPublic

structure SetsTls (config : ServerConfig) (entries : TomlTable) : Prop where
  certFile : entries.lookup (str "cert_file") = some (.string config.tlsCertFile)
  keyFile : entries.lookup (str "key_file") = some (.string config.tlsKeyFile)

structure SetsDatabase (config : ServerConfig) (entries : TomlTable) : Prop where
  path : Sets .string entries "path" config.dbPath initial.dbPath

structure SetsLimits (config : ServerConfig) (entries : TomlTable) : Prop where
  maxMessageBytes : Sets .integer entries "max_message_bytes" config.maxMessageBytes.toInt64
    initial.maxMessageBytes.toInt64
  pingIntervalSec : Sets ofInt entries "ping_interval_sec" config.pingIntervalSec
    initial.pingIntervalSec
  pingTimeoutSec : Sets ofInt entries "ping_timeout_sec" config.pingTimeoutSec
    initial.pingTimeoutSec
  msgRatePerSec : Sets ofInt entries "msg_rate_per_sec" config.msgRatePerSec initial.msgRatePerSec
  connRatePerMin : Sets ofInt entries "conn_rate_per_min" config.connRatePerMin
    initial.connRatePerMin
  commandsPerMin : Sets ofInt entries "commands_per_min" config.commandsPerMin
    initial.commandsPerMin
  joinsPerMin : Sets ofInt entries "joins_per_min" config.joinsPerMin initial.joinsPerMin
  abuseThreshold : Sets ofInt entries "abuse_threshold" config.abuseThreshold
    initial.abuseThreshold
  abuseWindowMin : Sets ofInt entries "abuse_window_min" config.abuseWindowMin
    initial.abuseWindowMin
  banDurationMin : Sets ofInt entries "ban_duration_min" config.banDurationMin
    initial.banDurationMin

structure SetsSecurity (config : ServerConfig) (entries : TomlTable) : Prop where
  fileEncryptionKey : Sets .string entries "file_encryption_key" config.fileEncryptionKey
    initial.fileEncryptionKey

structure SetsAntivirus (config : ServerConfig) (entries : TomlTable) : Prop where
  clamavSocket : Sets .string entries "clamav_socket" config.clamavSocket initial.clamavSocket
  clamavHost : Sets .string entries "clamav_host" config.clamavHost initial.clamavHost
  clamavPort : Sets .integer entries "clamav_port" (ofPort config.clamavPort)
    (ofPort initial.clamavPort)

structure SetsDirectory (config : ServerConfig) (entries : TomlTable) : Prop where
  enabled : Sets .boolean entries "enabled" config.directoryEnabled initial.directoryEnabled
  url : Sets .string entries "url" config.directoryUrl initial.directoryUrl
  pingIntervalSec : Sets ofInt entries "ping_interval_sec" config.directoryPingIntervalSec
    initial.directoryPingIntervalSec
  serverName : Sets .string entries "server_name" config.serverName initial.serverName
  description : Sets .string entries "description" config.serverDescription
    initial.serverDescription

structure SetsHttpApi (config : ServerConfig) (entries : TomlTable) : Prop where
  enabled : Sets .boolean entries "enabled" config.httpApiEnabled initial.httpApiEnabled
  port : Sets .integer entries "port" (ofPort config.httpApiPort) (ofPort initial.httpApiPort)
  bindAddress : Sets .string entries "bind_address" config.httpApiBind initial.httpApiBind
  apiKeys : Sets ofStrings entries "api_keys" config.httpApiKeys initial.httpApiKeys
  corsEnabled : Sets .boolean entries "cors_enabled" config.httpApiCors initial.httpApiCors
  rateLimitEnabled : Sets .boolean entries "rate_limit_enabled" config.httpApiRateLimit
    initial.httpApiRateLimit
  rateLimitRequests : Sets ofInt entries "rate_limit_requests" config.httpApiRateLimitRequests
    initial.httpApiRateLimitRequests

structure SetsAdmin (config : ServerConfig) (entries : TomlTable) : Prop where
  enabled : Sets .boolean entries "enabled" config.adminEnabled initial.adminEnabled
  keyFile : Sets .string entries "key_file" config.adminKeyFile initial.adminKeyFile
  autoJoinChannels : Sets ofStrings entries "auto_join_channels" config.adminAutoJoin
    initial.adminAutoJoin
  additionalReserved : Sets ofStrings entries "additional_reserved" config.adminAdditionalReserved
    initial.adminAdditionalReserved
  tuiSocket : Sets .string entries "tui_socket" config.adminTuiSocket initial.adminTuiSocket

/-- A message of the day in one string, or in lines. -/
def SetsMotd (config : ServerConfig) (data : TomlTable) : Prop :=
  Sets .string data "motd" config.motd initial.motd ∨
    ∃ lines, data.lookup (str "motd") = some (ofStrings lines) ∧
      config.motd = [10].intercalate lines

/-! ## Reading the sections -/

theorem loadServer_of_sets {data : TomlTable} (hserver : data.lookup (str "server") =
      some (.table entries)) (h : SetsServer config entries) (c : ServerConfig) :
    loadServer what data c = .ok (withServer config c) := by
  unfold loadServer
  simp only [hserver]
  rw [getRequired_string h.host, getRequired_integer h.port,
    getString_of_sets h.logLevel, getInt_of_sets h.maxConnections, getBool_of_sets h.isPublic]
  exact congrArg (fun port => Except.ok { withServer config c with port := port })
    (toUInt16_ofPort config.port)

theorem loadTls_of_sets {data : TomlTable} (htls : data.lookup (str "tls") = some (.table entries))
    (h : SetsTls config entries) (c : ServerConfig) :
    loadTls what data c =
      .ok (withTls config c) := by
  unfold loadTls
  simp only [htls]
  rw [getRequired_string h.certFile, getRequired_string h.keyFile]
  rfl

theorem loadDatabase_of_sets (h : SetsDatabase config entries) (c : ServerConfig) :
    loadDatabase what (.table entries) c = .ok (withDatabase config c) := by
  rw [loadDatabase, getString_of_sets h.path]
  rfl

theorem loadLimits_of_sets (h : SetsLimits config entries) (c : ServerConfig) :
    loadLimits what (.table entries) c = .ok (withLimits config c) := by
  have hbytes : getOptional what (getInteger what) (.table entries) (str "max_message_bytes")
      65536 = config.maxMessageBytes.toInt64 := getInteger_of_sets h.maxMessageBytes
  unfold loadLimits
  dsimp only
  rw [hbytes, getInt_of_sets h.pingIntervalSec, getInt_of_sets h.pingTimeoutSec,
    getInt_of_sets h.msgRatePerSec, getInt_of_sets h.connRatePerMin,
    getInt_of_sets h.commandsPerMin, getInt_of_sets h.joinsPerMin,
    getInt_of_sets h.abuseThreshold, getInt_of_sets h.abuseWindowMin,
    getInt_of_sets h.banDurationMin, UInt64.toUInt64_toInt64]
  rfl

theorem loadSecurity_of_sets (h : SetsSecurity config entries) (c : ServerConfig) :
    loadSecurity what (.table entries) c =
      .ok (withSecurity config c) := by
  rw [loadSecurity, getString_of_sets h.fileEncryptionKey]
  rfl

theorem loadAntivirus_of_sets (h : SetsAntivirus config entries) (c : ServerConfig) :
    loadAntivirus what (.table entries) c = .ok (withAntivirus config c) := by
  have hport : getOptional what (getInteger what) (.table entries) (str "clamav_port") 0 =
      ofPort config.clamavPort := getInteger_of_sets h.clamavPort
  rw [loadAntivirus, getString_of_sets h.clamavSocket, getString_of_sets h.clamavHost, hport,
    toUInt16_ofPort]
  rfl

theorem loadDirectory_of_sets (h : SetsDirectory config entries) (c : ServerConfig) :
    loadDirectory what (.table entries) c = .ok (withDirectory config c) := by
  rw [loadDirectory, getBool_of_sets h.enabled, getString_of_sets h.url,
    getInt_of_sets h.pingIntervalSec, getString_of_sets h.serverName,
    getString_of_sets h.description]
  rfl

theorem loadHttpApi_of_sets (h : SetsHttpApi config entries) (c : ServerConfig) :
    loadHttpApi what (.table entries) c = .ok (withHttpApi config c) := by
  have hport : getOptional what (getInteger what) (.table entries) (str "port") 8080 =
      ofPort config.httpApiPort := getInteger_of_sets h.port
  rw [loadHttpApi, getStrings_of_sets h.apiKeys, getBool_of_sets h.enabled, hport,
    toUInt16_ofPort, getString_of_sets h.bindAddress, getBool_of_sets h.corsEnabled,
    getBool_of_sets h.rateLimitEnabled, getInt_of_sets h.rateLimitRequests]
  rfl

theorem loadAdmin_of_sets (h : SetsAdmin config entries) (c : ServerConfig) :
    loadAdmin what (.table entries) c = .ok (withAdmin config c) := by
  rw [loadAdmin, getStrings_of_sets h.autoJoinChannels, getStrings_of_sets h.additionalReserved,
    getBool_of_sets h.enabled, getString_of_sets h.keyFile, getString_of_sets h.tuiSocket]
  rfl

/-- Several lines are joined. -/
theorem loadMotd_of_sets {data : TomlTable} (h : SetsMotd config data) {c : ServerConfig}
    (hc : withMotd initial c = c) :
    readSection data (str "motd") (loadMotd what) c = .ok (withMotd config c) := by
  have hlines : ∀ lines : List Str, (lines.map TomlValue.string).mapM (getString what) =
      .ok lines := by
    intro lines
    induction lines with
    | nil => rfl
    | cons line lines ih =>
      rw [List.map_cons, List.mapM_cons, ih]
      rfl
  unfold readSection
  rcases h with (h | ⟨h, e⟩) | ⟨lines, h, e⟩
  · rw [h]
    rfl
  · rw [h]
    unfold withMotd at hc ⊢
    rw [e, hc]
  · rw [h]
    simp only [loadMotd, ofStrings, hlines, withMotd, e]

/-! ## The optional sections -/

section Optional

variable {data : TomlTable} {c : ServerConfig}

theorem readDatabase (h : SetsSection data "database" (SetsDatabase config))
    (hc : withDatabase initial c = c) :
    readSection data (str "database") (loadDatabase what) c = .ok (withDatabase config c) :=
  readSection_of_sets h (fun _ sets => loadDatabase_of_sets sets c) rfl hc

theorem readLimits (h : SetsSection data "limits" (SetsLimits config))
    (hc : withLimits initial c = c) :
    readSection data (str "limits") (loadLimits what) c = .ok (withLimits config c) :=
  readSection_of_sets h (fun _ sets => loadLimits_of_sets sets c) rfl hc

theorem readSecurity (h : SetsSection data "security" (SetsSecurity config))
    (hc : withSecurity initial c = c) :
    readSection data (str "security") (loadSecurity what) c = .ok (withSecurity config c) :=
  readSection_of_sets h (fun _ sets => loadSecurity_of_sets sets c) rfl hc

theorem readAntivirus (h : SetsSection data "antivirus" (SetsAntivirus config))
    (hc : withAntivirus initial c = c) :
    readSection data (str "antivirus") (loadAntivirus what) c = .ok (withAntivirus config c) :=
  readSection_of_sets h (fun _ sets => loadAntivirus_of_sets sets c) rfl hc

theorem readDirectory (h : SetsSection data "directory" (SetsDirectory config))
    (hc : withDirectory initial c = c) :
    readSection data (str "directory") (loadDirectory what) c = .ok (withDirectory config c) :=
  readSection_of_sets h (fun _ sets => loadDirectory_of_sets sets c) rfl hc

theorem readHttpApi (h : SetsSection data "http_api" (SetsHttpApi config))
    (hc : withHttpApi initial c = c) :
    readSection data (str "http_api") (loadHttpApi what) c = .ok (withHttpApi config c) :=
  readSection_of_sets h (fun _ sets => loadHttpApi_of_sets sets c) rfl hc

theorem readAdmin (h : SetsSection data "admin" (SetsAdmin config)) (hc : withAdmin initial c = c) :
    readSection data (str "admin") (loadAdmin what) c = .ok (withAdmin config c) :=
  readSection_of_sets h (fun _ sets => loadAdmin_of_sets sets c) rfl hc

end Optional

/-! ## The whole file -/

/-- What a file sets; only `[server]` and `[tls]` cannot be left out. -/
structure FileSets (data : TomlTable) (config : ServerConfig) : Prop where
  server : ∃ entries, data.lookup (str "server") = some (.table entries) ∧
    SetsServer config entries
  tls : ∃ entries, data.lookup (str "tls") = some (.table entries) ∧ SetsTls config entries
  database : SetsSection data "database" (SetsDatabase config)
  limits : SetsSection data "limits" (SetsLimits config)
  security : SetsSection data "security" (SetsSecurity config)
  antivirus : SetsSection data "antivirus" (SetsAntivirus config)
  motd : SetsMotd config data
  directory : SetsSection data "directory" (SetsDirectory config)
  httpApi : SetsSection data "http_api" (SetsHttpApi config)
  admin : SetsSection data "admin" (SetsAdmin config)

/-- The configuration is what the file sets; `headless` is left to the command line. -/
theorem load_of_fileSets {data : TomlTable} (h : FileSets data config) :
    load what data = .ok { config with headless := initial.headless } := by
  obtain ⟨server, hserver, setsServer⟩ := h.server
  obtain ⟨tls, htls, setsTls⟩ := h.tls
  have hbind : ∀ (c : ServerConfig) (f : ServerConfig → Except ConfigError ServerConfig),
      (Except.ok c >>= f) = f c := fun _ _ => rfl
  rw [load, loadServer_of_sets hserver setsServer, hbind, loadSections,
    loadTls_of_sets htls setsTls, hbind, readDatabase h.database, hbind, readLimits h.limits, hbind,
    readSecurity h.security, hbind, readAntivirus h.antivirus, hbind, loadMotd_of_sets h.motd,
    hbind, readDirectory h.directory, hbind, readHttpApi h.httpApi, hbind, readAdmin h.admin]
  -- before its turn a section is as in the beginning, and in the end each has had its turn
  all_goals
    simp only [withServer, withTls, withDatabase, withLimits, withSecurity, withAntivirus, withMotd,
      withDirectory, withHttpApi, withAdmin]

/-- Every setting of a configuration, section by section. -/
def written (config : ServerConfig) : TomlTable :=
  [(str "server", .table [
      (str "host", .string config.host),
      (str "port", .integer (ofPort config.port)),
      (str "log_level", .string config.logLevel),
      (str "max_connections", ofInt config.maxConnections),
      (str "public", .boolean config.isPublic)]),
    (str "tls", .table [
      (str "cert_file", .string config.tlsCertFile),
      (str "key_file", .string config.tlsKeyFile)]),
    (str "database", .table [
      (str "path", .string config.dbPath)]),
    (str "limits", .table [
      (str "max_message_bytes", .integer config.maxMessageBytes.toInt64),
      (str "ping_interval_sec", ofInt config.pingIntervalSec),
      (str "ping_timeout_sec", ofInt config.pingTimeoutSec),
      (str "msg_rate_per_sec", ofInt config.msgRatePerSec),
      (str "conn_rate_per_min", ofInt config.connRatePerMin),
      (str "commands_per_min", ofInt config.commandsPerMin),
      (str "joins_per_min", ofInt config.joinsPerMin),
      (str "abuse_threshold", ofInt config.abuseThreshold),
      (str "abuse_window_min", ofInt config.abuseWindowMin),
      (str "ban_duration_min", ofInt config.banDurationMin)]),
    (str "security", .table [
      (str "file_encryption_key", .string config.fileEncryptionKey)]),
    (str "antivirus", .table [
      (str "clamav_socket", .string config.clamavSocket),
      (str "clamav_host", .string config.clamavHost),
      (str "clamav_port", .integer (ofPort config.clamavPort))]),
    (str "motd", .string config.motd),
    (str "directory", .table [
      (str "enabled", .boolean config.directoryEnabled),
      (str "url", .string config.directoryUrl),
      (str "ping_interval_sec", ofInt config.directoryPingIntervalSec),
      (str "server_name", .string config.serverName),
      (str "description", .string config.serverDescription)]),
    (str "http_api", .table [
      (str "enabled", .boolean config.httpApiEnabled),
      (str "port", .integer (ofPort config.httpApiPort)),
      (str "bind_address", .string config.httpApiBind),
      (str "api_keys", ofStrings config.httpApiKeys),
      (str "cors_enabled", .boolean config.httpApiCors),
      (str "rate_limit_enabled", .boolean config.httpApiRateLimit),
      (str "rate_limit_requests", ofInt config.httpApiRateLimitRequests)]),
    (str "admin", .table [
      (str "enabled", .boolean config.adminEnabled),
      (str "key_file", .string config.adminKeyFile),
      (str "auto_join_channels", ofStrings config.adminAutoJoin),
      (str "additional_reserved", ofStrings config.adminAdditionalReserved),
      (str "tui_socket", .string config.adminTuiSocket)])]

theorem fileSets_written (config : ServerConfig) : FileSets (written config) config where
  server := ⟨_, rfl, ⟨rfl, rfl, .inl rfl, .inl rfl, .inl rfl⟩⟩
  tls := ⟨_, rfl, ⟨rfl, rfl⟩⟩
  database := .inl ⟨_, rfl, ⟨.inl rfl⟩⟩
  limits := .inl ⟨_, rfl, ⟨.inl rfl, .inl rfl, .inl rfl, .inl rfl, .inl rfl, .inl rfl,
    .inl rfl, .inl rfl, .inl rfl, .inl rfl⟩⟩
  security := .inl ⟨_, rfl, ⟨.inl rfl⟩⟩
  antivirus := .inl ⟨_, rfl, ⟨.inl rfl, .inl rfl, .inl rfl⟩⟩
  motd := .inl (.inl rfl)
  directory := .inl ⟨_, rfl, ⟨.inl rfl, .inl rfl, .inl rfl, .inl rfl, .inl rfl⟩⟩
  httpApi := .inl ⟨_, rfl, ⟨.inl rfl, .inl rfl, .inl rfl, .inl rfl, .inl rfl, .inl rfl, .inl rfl⟩⟩
  admin := .inl ⟨_, rfl, ⟨.inl rfl, .inl rfl, .inl rfl, .inl rfl, .inl rfl⟩⟩

/-- Every configuration can be written down, and is what is loaded from any file that sets it. -/
theorem load_what_is_set (what : TomlType → TomlValue → Str) (config : ServerConfig) :
    FileSets (written config) config ∧ ∀ data, FileSets data config →
      load what data = .ok { config with headless := initial.headless } :=
  ⟨fileSets_written config, fun _ h => load_of_fileSets h⟩

end Sections

end ConfigLoader

end Ircord

import IrcordServer.Text

/-!
# The configuration

`config.hpp` and `config.cpp`.  `toml::parse` belongs to toml11: the loader starts from the table it
returns, and `what` is the text of the `type_error` that toml11 raises about a value.
-/

namespace Ircord

/-! ## TOML values -/

inductive TomlValue
  | boolean (b : Bool)
  | integer (i : Int64)
  | string (s : Str)
  | array (elems : List TomlValue)
  | table (entries : List (Str × TomlValue))
  /-- A floating-point number, a date or a time. -/
  | other

/-- The types that the loader asks for. -/
inductive TomlType
  | boolean | integer | string | table

abbrev TomlTable := List (Str × TomlValue)

/-- What `toml::find` throws. -/
inductive FindError
  | outOfRange
  | typeError (what : Str)

/-- What `load` and `validate` throw. -/
inductive ConfigError
  | runtimeError (what : Str)
  | typeError (what : Str)

/-! ## The settings -/

structure ServerConfig where
  host : Str := str "0.0.0.0"
  port : UInt16 := 6697
  logLevel : Str := str "info"
  maxConnections : Int32 := 100
  headless : Bool := false
  tlsCertFile : Str := []
  tlsKeyFile : Str := []
  dbPath : Str := str "./ircord.db"
  maxMessageBytes : UInt64 := 65536
  pingIntervalSec : Int32 := 30
  pingTimeoutSec : Int32 := 60
  msgRatePerSec : Int32 := 20
  connRatePerMin : Int32 := 10
  commandsPerMin : Int32 := 30
  joinsPerMin : Int32 := 5
  abuseThreshold : Int32 := 5
  abuseWindowMin : Int32 := 10
  banDurationMin : Int32 := 30
  fileEncryptionKey : Str := []
  clamavSocket : Str := []
  clamavHost : Str := str "127.0.0.1"
  clamavPort : UInt16 := 0
  motd : Str := []
  isPublic : Bool := false
  directoryEnabled : Bool := false
  directoryUrl : Str := str "https://directory.ircord.dev"
  directoryPingIntervalSec : Int32 := 300
  serverName : Str := []
  serverDescription : Str := []
  httpApiEnabled : Bool := false
  httpApiPort : UInt16 := 8080
  httpApiBind : Str := str "127.0.0.1"
  httpApiKeys : List Str := []
  httpApiCors : Bool := true
  httpApiRateLimit : Bool := true
  httpApiRateLimitRequests : Int32 := 60
  adminEnabled : Bool := true
  adminKeyFile : Str := str "./keys/admin.ed25519"
  adminAutoJoin : List Str := []
  adminAdditionalReserved : List Str := []
  adminTuiSocket : Str := str "/run/ircord/admin.sock"

namespace ConfigLoader

section Load

variable (what : TomlType → TomlValue → Str)

/-! ## Reading one setting -/

/-- `toml::get<std::string>`. -/
def getString : TomlValue → Except Str Str
  | .string s => .ok s
  | v => .error (what .string v)

/-- `toml::get<int64_t>`. -/
def getInteger : TomlValue → Except Str Int64
  | .integer i => .ok i
  | v => .error (what .integer v)

/-- `toml::get<int>`: the number is cast. -/
def getInt (v : TomlValue) : Except Str Int32 := (getInteger what v).map Int64.toInt32

/-- `toml::get<bool>`. -/
def getBool : TomlValue → Except Str Bool
  | .boolean b => .ok b
  | v => .error (what .boolean v)

/-- `toml::find`. -/
def find {α : Type} (get : TomlValue → Except Str α) (data : TomlValue) (key : Str) :
    Except FindError α :=
  match data with
  | .table entries =>
    match entries.lookup key with
    | none => .error .outOfRange
    | some v => (get v).mapError .typeError
  | v => .error (.typeError (what .table v))

def getRequired {α : Type} (get : TomlValue → Except Str α) (data : TomlValue) (key : Str) :
    Except ConfigError α :=
  match find what get data key with
  | .ok a => .ok a
  | .error .outOfRange => .error (.runtimeError (str "Missing required config field: " ++ key))
  | .error (.typeError text) =>
    .error (.runtimeError (str "Invalid type for config field " ++ key ++ str ": " ++ text))

def getOptional {α : Type} (get : TomlValue → Except Str α) (data : TomlValue) (key : Str)
    (defaultVal : α) : α :=
  match find what get data key with
  | .ok a => a
  | .error _ => defaultVal

/-- The strings of an optional array; `contains` throws if the section is no table. -/
def getStrings (data : TomlValue) (key : Str) : Except ConfigError (List Str) :=
  match data with
  | .table entries =>
    .ok <| match entries.lookup key with
      | some (.array elems) => elems.filterMap fun v => (getString what v).toOption
      | _ => []
  | v => .error (.typeError (what .table v))

/-- `static_cast<uint16_t>` of an `int64_t`. -/
def toUInt16 (i : Int64) : UInt16 := i.toUInt64.toUInt16

/-! ## The sections -/

/-- An optional section. -/
def readSection (data : TomlTable) (key : Str)
    (read : TomlValue → ServerConfig → Except ConfigError ServerConfig) (config : ServerConfig) :
    Except ConfigError ServerConfig :=
  match data.lookup key with
  | none => .ok config
  | some value => read value config

def loadServer (data : TomlTable) (config : ServerConfig) : Except ConfigError ServerConfig :=
  match data.lookup (str "server") with
  | none => .error (.runtimeError (str "Missing required [server] section in config"))
  | some server => do
    let host ← getRequired what (getString what) server (str "host")
    let port ← getRequired what (getInteger what) server (str "port")
    return { config with
      host := host
      port := toUInt16 port
      logLevel := getOptional what (getString what) server (str "log_level") (str "info")
      maxConnections := getOptional what (getInt what) server (str "max_connections") 100
      isPublic := getOptional what (getBool what) server (str "public") false }

def loadTls (data : TomlTable) (config : ServerConfig) : Except ConfigError ServerConfig :=
  match data.lookup (str "tls") with
  | none => .error (.runtimeError (str "Missing required [tls] section in config"))
  | some tls => do
    let certFile ← getRequired what (getString what) tls (str "cert_file")
    let keyFile ← getRequired what (getString what) tls (str "key_file")
    return { config with tlsCertFile := certFile, tlsKeyFile := keyFile }

def loadDatabase (database : TomlValue) (config : ServerConfig) : Except ConfigError ServerConfig :=
  .ok { config with
    dbPath := getOptional what (getString what) database (str "path") (str "./ircord.db") }

def loadLimits (limits : TomlValue) (config : ServerConfig) : Except ConfigError ServerConfig :=
  let int (key : String) (defaultVal : Int32) : Int32 :=
    getOptional what (getInt what) limits (str key) defaultVal
  .ok { config with
    maxMessageBytes :=
      (getOptional what (getInteger what) limits (str "max_message_bytes") 65536).toUInt64
    pingIntervalSec := int "ping_interval_sec" 30
    pingTimeoutSec := int "ping_timeout_sec" 60
    msgRatePerSec := int "msg_rate_per_sec" 20
    connRatePerMin := int "conn_rate_per_min" 10
    commandsPerMin := int "commands_per_min" 30
    joinsPerMin := int "joins_per_min" 5
    abuseThreshold := int "abuse_threshold" 5
    abuseWindowMin := int "abuse_window_min" 10
    banDurationMin := int "ban_duration_min" 30 }

def loadSecurity (security : TomlValue) (config : ServerConfig) : Except ConfigError ServerConfig :=
  .ok { config with
    fileEncryptionKey := getOptional what (getString what) security (str "file_encryption_key") [] }

def loadAntivirus (av : TomlValue) (config : ServerConfig) : Except ConfigError ServerConfig :=
  .ok { config with
    clamavSocket := getOptional what (getString what) av (str "clamav_socket") []
    clamavHost := getOptional what (getString what) av (str "clamav_host") (str "127.0.0.1")
    clamavPort := toUInt16 (getOptional what (getInteger what) av (str "clamav_port") 0) }

/-- A message of the day in one string, or in an array of lines. -/
def loadMotd (motd : TomlValue) (config : ServerConfig) : Except ConfigError ServerConfig :=
  match motd with
  | .array lines =>
    match lines.mapM (getString what) with
    | .ok lines => .ok { config with motd := [10].intercalate lines }
    | .error text => .error (.typeError text)
  | .string s => .ok { config with motd := s }
  | _ => .ok config

def loadDirectory (dir : TomlValue) (config : ServerConfig) : Except ConfigError ServerConfig :=
  .ok { config with
    directoryEnabled := getOptional what (getBool what) dir (str "enabled") false
    directoryUrl :=
      getOptional what (getString what) dir (str "url") (str "https://directory.ircord.dev")
    directoryPingIntervalSec := getOptional what (getInt what) dir (str "ping_interval_sec") 300
    serverName := getOptional what (getString what) dir (str "server_name") []
    serverDescription := getOptional what (getString what) dir (str "description") [] }

def loadHttpApi (http : TomlValue) (config : ServerConfig) : Except ConfigError ServerConfig := do
  let keys ← getStrings what http (str "api_keys")
  return { config with
    httpApiEnabled := getOptional what (getBool what) http (str "enabled") false
    httpApiPort := toUInt16 (getOptional what (getInteger what) http (str "port") 8080)
    httpApiBind := getOptional what (getString what) http (str "bind_address") (str "127.0.0.1")
    httpApiKeys := keys
    httpApiCors := getOptional what (getBool what) http (str "cors_enabled") true
    httpApiRateLimit := getOptional what (getBool what) http (str "rate_limit_enabled") true
    httpApiRateLimitRequests := getOptional what (getInt what) http (str "rate_limit_requests") 60 }

def loadAdmin (admin : TomlValue) (config : ServerConfig) : Except ConfigError ServerConfig := do
  let autoJoin ← getStrings what admin (str "auto_join_channels")
  let reserved ← getStrings what admin (str "additional_reserved")
  return { config with
    adminEnabled := getOptional what (getBool what) admin (str "enabled") true
    adminKeyFile :=
      getOptional what (getString what) admin (str "key_file") (str "./keys/admin.ed25519")
    adminAutoJoin := autoJoin
    adminAdditionalReserved := reserved
    adminTuiSocket :=
      getOptional what (getString what) admin (str "tui_socket") (str "/run/ircord/admin.sock") }

/-- The sections behind `[server]`. -/
def loadSections (data : TomlTable) (config : ServerConfig) : Except ConfigError ServerConfig := do
  let config ← loadTls what data config
  let config ← readSection data (str "database") (loadDatabase what) config
  let config ← readSection data (str "limits") (loadLimits what) config
  let config ← readSection data (str "security") (loadSecurity what) config
  let config ← readSection data (str "antivirus") (loadAntivirus what) config
  let config ← readSection data (str "motd") (loadMotd what) config
  let config ← readSection data (str "directory") (loadDirectory what) config
  let config ← readSection data (str "http_api") (loadHttpApi what) config
  readSection data (str "admin") (loadAdmin what) config

/-- `ConfigLoader::load`, from the parsed file on. -/
def load (data : TomlTable) : Except ConfigError ServerConfig := do
  let config ← loadServer what data {}
  loadSections what data config

end Load

/-- `ConfigLoader::validate`. -/
def validate (config : ServerConfig) : Except ConfigError Unit :=
  if config.host.isEmpty then
    .error (.runtimeError (str "Invalid config: host cannot be empty"))
  else if config.port = 0 then
    .error (.runtimeError (str "Invalid config: port cannot be zero"))
  else if config.tlsCertFile.isEmpty then
    .error (.runtimeError (str "Invalid config: tls.cert_file cannot be empty"))
  else if config.tlsKeyFile.isEmpty then
    .error (.runtimeError (str "Invalid config: tls.key_file cannot be empty"))
  else if config.maxMessageBytes = 0 ∨ config.maxMessageBytes > 1024 * 1024 then
    .error (.runtimeError
      (str "Invalid config: max_message_bytes must be between 1 and 1MB"))
  else if config.pingIntervalSec ≤ 0 ∨ config.pingIntervalSec > 300 then
    .error (.runtimeError (str "Invalid config: ping_interval_sec must be between 1 and 300"))
  else if config.pingTimeoutSec ≤ 0 ∨ config.pingTimeoutSec > 600 then
    .error (.runtimeError (str "Invalid config: ping_timeout_sec must be between 1 and 600"))
  else .ok ()

/-- `main` loads the configuration and validates it. -/
def loadValidated (what : TomlType → TomlValue → Str) (data : TomlTable) :
    Except ConfigError ServerConfig := do
  let config ← load what data
  validate config
  return config

end ConfigLoader

end Ircord

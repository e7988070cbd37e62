import IrcordServer.ConfigLoader
import IrcordServer.Decimal

/-!
# The directory client

`net/directory_client.cpp`: what the client takes from the configuration when it is built, and the
bodies of the requests it sends.
-/

namespace Ircord

/-! ## Request bodies -/

/-- One character of `escape_json`. -/
def escapeJsonChar (c : UInt8) : Str :=
  if c = 34 then [92, 34]
  else if c = 92 then [92, 92]
  else if c = 8 then [92, ch 'b']
  else if c = 12 then [92, ch 'f']
  else if c = 10 then [92, ch 'n']
  else if c = 13 then [92, ch 'r']
  else if c = 9 then [92, ch 't']
  else [c]

/-- `escape_json`. -/
def escapeJson (s : Str) : Str := s.flatMap escapeJsonChar

/-- The body in `register_server`. -/
def registrationBody (config : ServerConfig) : Str :=
  let name := if config.serverName.isEmpty then str "IRCord Server" else config.serverName
  let desc :=
    if config.serverDescription.isEmpty then str "An IRCord encrypted chat server"
    else config.serverDescription
  str "\x7b" ++
    (str "\"host\":\"" ++ escapeJson config.host ++ str "\",") ++
    (str "\"port\":" ++ toStr config.port.toNat ++ str ",") ++
    (str "\"name\":\"" ++ escapeJson name ++ str "\",") ++
    (str "\"description\":\"" ++ escapeJson desc ++ str "\"") ++
    str "\x7d"

/-- The body in `send_ping`. -/
def pingBody (serverId : Str) : Str :=
  str "\x7b\"server_id\":\"" ++ escapeJson serverId ++ str "\"\x7d"

/-! ## The directory's URL -/

structure DirectoryClient where
  enabled : Bool
  directoryHost : Str
  directoryPath : Str
  directoryPort : UInt16
  directoryUseSsl : Bool
  deriving DecidableEq

namespace DirectoryClient

/-- The scheme of a URL as the TLS flag and the default port, and what follows it. -/
def splitScheme (url : Str) : Bool × UInt16 × Str :=
  if url.take 8 = str "https://" then (true, 443, url.drop 8)
  else if url.take 7 = str "http://" then (false, 80, url.drop 7)
  else (true, 443, url)

/-- Host and port, up to the path at `pathPos`. -/
def splitHost (url : Str) (defaultPort : UInt16) (pathPos : Option ℕ) : Str × UInt16 :=
  match url.findIdx? (· == ch ':') with
  | some portPos =>
    if pathPos.all fun p => decide (portPos < p) then
      let portEnd := pathPos.getD url.length
      (url.take portPos,
        match stoi ((url.drop (portPos + 1)).take (portEnd - portPos - 1)) with
        | some port => UInt16.ofInt port
        | none => defaultPort)
    else (url.take (pathPos.getD url.length), defaultPort)
  | none => (url.take (pathPos.getD url.length), defaultPort)

/-- The constructor. -/
def new (config : ServerConfig) : DirectoryClient :=
  let url :=
    if config.directoryUrl.isEmpty then str "https://directory.ircord.dev" else config.directoryUrl
  let (useSsl, defaultPort, url) := splitScheme url
  let pathPos := url.findIdx? (· == ch '/')
  let (host, port) := splitHost url defaultPort pathPos
  { enabled := config.isPublic && config.directoryEnabled
    directoryHost := host
    directoryPath := pathPos.elim [] fun p => url.drop p
    directoryPort := port
    directoryUseSsl := useSsl }

end DirectoryClient

end Ircord

import IrcordServer.Action
import IrcordServer.Commands.Handler
import IrcordServer.Db.FileStore
import IrcordServer.Net.Session
import IrcordServer.VoiceRoomManager

/-!
# The server state

`net/listener.hpp`: the `Listener` with everything it owns or refers to, and the parts of
`listener.cpp` that sessions call.  Sessions are numbered in the order they were accepted and their
records stay.  Two fields only record what happened: `disconnected`, the calls of
`on_session_disconnected`, and `written`, the envelopes given to `async_write`.
-/

open Container

namespace Ircord

/-- A challenge of `generate_nonce`. -/
abbrev Nonce := { b : Bytes // b.length = 32 }

/-- The clock readings and the random bytes of one step. -/
structure Draws where
  now : Time
  nowUnix : ℤ
  nonce : Nonce
  pwhash : Option PwHash

/-- `now_ms`. -/
def Draws.nowMs (d : Draws) : ℤ := d.now / 1000000

structure Server where
  sessions : List Session
  sessionsByUser : UnorderedMap Str SessionId
  usersBySession : UnorderedMap SessionId Str
  activeConnections : ℤ
  maxConnections : ℤ
  connRatePerMin : ℤ
  msgRatePerSec : ℤ
  motd : Str
  ipRateMap : UnorderedMap Str RateLimiter
  accepting : Bool
  shuttingDown : Bool
  db : Database
  commands : CommandHandler
  voice : VoiceRoomManager
  disconnected : List SessionId
  written : List (SessionId × Envelope)

/-- The settings of `ServerConfig` that the listener reads. -/
structure Config where
  maxConnections : ℤ
  connRatePerMin : ℤ
  msgRatePerSec : ℤ
  motd : Str

namespace Server

/-- The server after `Listener::run`, with the tables it opened. -/
def start (config : Config) (db : Database) : Server where
  sessions := []
  sessionsByUser := ∅
  usersBySession := ∅
  activeConnections := 0
  maxConnections := config.maxConnections
  connRatePerMin := config.connRatePerMin
  msgRatePerSec := config.msgRatePerSec
  motd := config.motd
  ipRateMap := ∅
  accepting := true
  shuttingDown := false
  db := db
  commands := .empty
  voice := .empty
  disconnected := []
  written := []

variable (codec : Codec) (d : Draws) (sv : Server)

/-! ## What happens to one session -/

def modify (s : SessionId) (f : Session → Session) : Server :=
  { sv with sessions := sv.sessions.modify s f }

/-- `Session::send`. -/
def send (s : SessionId) (env : Envelope) : Server :=
  { sv.modify s fun x => { x with writes := x.writes + 1 } with
    written := sv.written ++ [(s, env)] }

/-- `Session::disconnect`: everything else happens in the posted function. -/
def disconnect (s : SessionId) : Server :=
  sv.modify s fun x => { x with disconnects := x.disconnects + 1 }

/-- `send_envelope`, for a payload that is already serialized. -/
def sendEnvelope (s : SessionId) (type : MessageType) (payload : Bytes) : Server :=
  match sv.sessions[s]? with
  | none => sv
  | some x =>
    (sv.modify s fun x => { x with nextSeq := x.nextSeq + 1 }).send s
      ⟨x.nextSeq, d.nowMs, type, payload⟩

/-- `send_error`. -/
def sendError (s : SessionId) (code : UInt32) (message : String) : Server :=
  sv.sendEnvelope d s .error (codec.errorMessage.serialize ⟨code, str message⟩)

/-- The actions of a component, in order. -/
def run (actions : List Action) : Server :=
  actions.foldl (fun sv a => match a with
    | .send s env => sv.send s env
    | .disconnect s _ => sv.disconnect s) sv

/-! ## The registry -/

def findSession (userId : Str) : Option SessionId := sv.sessionsByUser.lookup userId

/-- `broadcast`: to every registered session but one. -/
def broadcast (env : Envelope) (exclude : Option SessionId) : Server :=
  ((sv.sessionsByUser.entries.map (·.2)).filter fun s => some s != exclude).foldl
    (fun sv s => sv.send s env) sv

def presenceEnvelope (update : PresenceUpdate) : Envelope :=
  ⟨0, d.nowMs, .presence, codec.presenceUpdate.serialize update⟩

def broadcastPresence (update : PresenceUpdate) (exclude : Option SessionId) : Server :=
  sv.broadcast (presenceEnvelope codec d update) exclude

/-- `is_nickname_available`, without an excluded user. -/
def isNicknameAvailable (nickname : Str) : Bool :=
  sv.sessionsByUser.keys.all fun userId => normalizeNickname userId != normalizeNickname nickname

def addSession (s : SessionId) (userId : Str) : Server :=
  { sv with
    sessionsByUser := sv.sessionsByUser.insert userId s
    usersBySession := sv.usersBySession.insert s userId }

def removeSession (s : SessionId) (userId : Str) : Server :=
  { sv with
    sessionsByUser := sv.sessionsByUser.erase userId
    usersBySession := sv.usersBySession.erase s }

/-- The part of `on_session_authenticated` that replaces an earlier session of the user. -/
def register (s : SessionId) (userId : Str) : Server :=
  match sv.sessionsByUser.lookup userId with
  | none => sv.addSession s userId
  | some old => ((sv.disconnect old).removeSession old userId).addSession s userId

/-- `get_online_users` without the endpoints: the users whose session is established. -/
def onlineUsers : List Str :=
  (sv.sessionsByUser.entries.filter fun e =>
    sv.sessions[e.2]?.any fun x => x.state == .established).map (·.1)

/-- `send_presence_snapshot`. -/
def sendPresenceSnapshot (s : SessionId) (userIds : List Str) : Server :=
  userIds.foldl (fun sv userId => sv.send s (presenceEnvelope codec d ⟨userId, .online⟩)) sv

def onSessionAuthenticated (s : SessionId) (userId : Str) : Server :=
  let sv := sv.register s userId
  sv.sendPresenceSnapshot codec d s sv.onlineUsers

/-- `on_session_disconnected` up to the end of its critical section. -/
def unregister (s : SessionId) : Server :=
  let sv := { sv with
    activeConnections := sv.activeConnections - 1
    disconnected := s :: sv.disconnected }
  match sv.usersBySession.lookup s with
  | none => sv
  | some userId => sv.removeSession s userId

def leaveVoiceRooms (userId : Str) : Server :=
  let (voice, actions) := sv.voice.onDisconnect codec sv.findSession userId
  { sv with voice := voice }.run actions

def onSessionDisconnected (s : SessionId) : Server :=
  match sv.usersBySession.lookup s with
  | none => sv.unregister s
  | some userId =>
    let sv := sv.unregister s
    if userId.isEmpty then sv
    else (sv.broadcastPresence codec d ⟨userId, .offline⟩ none).leaveVoiceRooms codec userId

end Server

end Ircord

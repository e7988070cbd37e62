import IrcordServer.Net.Envelope
import IrcordServer.Run
import IrcordServer.Wire

/-!
# Steps of the server

A run of the server is a sequence of events, each of which runs one completion handler to its end:
an accepted connection, a finished handshake, read or write, a posted `disconnect`, an expired ping
timer, or one of the calls that come from the admin socket, the cleanup timer and the signal
handler.  An operation may complete only while it is outstanding, and then with any result.
-/

open Container

namespace Ircord

inductive Event
  | accept (ip : Str)
  | acceptError
  | handshakeDone (s : SessionId) (ok : Bool)
  /-- The header of a frame: its payload size, or a read error. -/
  | headerRead (s : SessionId) (size : Option UInt32)
  | payloadRead (s : SessionId) (data : Option Bytes)
  | writeDone (s : SessionId) (ok : Bool)
  /-- The function posted by `Session::disconnect`. -/
  | disconnectRuns (s : SessionId)
  | timerExpires (s : SessionId)
  /-- The handler of a wait that has expired. -/
  | timerFires (s : SessionId) (wait : TimerWait)
  /-- The admin commands `kick` and `ban`. -/
  | adminDisconnect (userId : Str)
  | setMaxConnections (maxConnections : ℤ)
  | setMsgRate (msgRatePerSec : ℤ)
  | setMotd (motd : Str)
  | cleanup
  | shutdown

/-- An event with what the step draws. -/
structure Input where
  draws : Draws
  event : Event

/-- The event at time zero, with zeros drawn. -/
def Event.atZero (event : Event) : Input :=
  ⟨⟨0, 0, ⟨List.replicate 32 0, List.length_replicate⟩, none⟩, event⟩

namespace Server

variable (codec : Codec) (crypto : Crypto) (d : Draws) (sv : Server) (s : SessionId)

/-! ## Which events can happen -/

/-- One of the two maps holds the session. -/
def Registered : Prop := s ∈ sv.usersBySession ∨ ∃ e ∈ sv.sessionsByUser.entries, e.2 = s

instance : Decidable (sv.Registered s) := inferInstanceAs (Decidable (_ ∨ _))

/-- Somebody holds a `shared_ptr` to the session: an outstanding operation or the registry. -/
def Alive : Prop := (∃ x, sv.sessions[s]? = some x ∧ x.Outstanding) ∨ sv.Registered s

instance : Decidable (sv.Alive s) :=
  have : Decidable (∃ x, sv.sessions[s]? = some x ∧ x.Outstanding) :=
    decidable_of_iff (∃ x ∈ sv.sessions[s]?, x.Outstanding) Iff.rfl
  inferInstanceAs (Decidable (_ ∨ _))

/-- The outstanding read of `x` has the size of `data`. -/
def ReadsPayload (x : Session) (data : Option Bytes) : Bool :=
  match x.reading, data with
  | some (.payload size), some data => data.length = size
  | some (.payload _), none => true
  | _, _ => false

/-- The operation that the event completes is outstanding.  A timer goes with its session. -/
def enabled : Event → Bool
  | .accept _ | .acceptError => sv.accepting
  | .handshakeDone s _ => sv.sessions[s]?.any fun x => x.handshaking
  | .headerRead s _ => sv.sessions[s]?.any fun x => x.reading == some .header
  | .payloadRead s data => sv.sessions[s]?.any fun x => ReadsPayload x data
  | .writeDone s _ => sv.sessions[s]?.any fun x => 0 < x.writes
  | .disconnectRuns s => sv.sessions[s]?.any fun x => 0 < x.disconnects
  | .timerExpires s => sv.Alive s && sv.sessions[s]?.any fun x => x.timer.isSome
  | .timerFires s wait => sv.Alive s && sv.sessions[s]?.any fun x => x.expired.contains wait
  | _ => true

/-! ## What they do -/

/-- The handler of `async_accept` for a new connection. -/
def onAccept (ip : Str) : Server :=
  let sv := { sv with accepting := !sv.shuttingDown }
  if sv.activeConnections ≥ sv.maxConnections then sv
  else
    let limiter := (sv.ipRateMap.lookup ip).getD (.new sv.connRatePerMin (minutes 1) d.now)
    let (allowed, limiter) := limiter.allow d.now
    let sv := { sv with ipRateMap := sv.ipRateMap.insert ip limiter }
    if !allowed then sv
    else { sv with
      activeConnections := sv.activeConnections + 1
      sessions := sv.sessions ++ [.new] }

/-- `do_read_frame_header`. -/
def doReadFrameHeader : Server :=
  sv.modify s fun x => if x.state = .dead then x else { x with reading := some .header }

def onHandshake (ok : Bool) : Server :=
  let sv := sv.modify s fun x => { x with handshaking := false }
  if ok then (sv.modify s fun x => { x with state := .hello }).doReadFrameHeader s
  else sv.onSessionDisconnected codec d s

def onHeader (size : Option UInt32) : Server :=
  let sv := sv.modify s fun x => { x with reading := none }
  match size with
  | none => sv.onSessionDisconnected codec d s
  | some size =>
    if size.toNat > Session.maxMessageSize then
      (sv.sendError codec d s 4001 "Message too large").onSessionDisconnected codec d s
    else if size = 0 then sv.onSessionDisconnected codec d s
    else sv.modify s fun x => { x with reading := some (.payload size.toNat) }

def onPayload (x : Session) (data : Option Bytes) : Server :=
  let sv := sv.modify s fun x => { x with reading := none }
  match data with
  | none => sv.onSessionDisconnected codec d s
  | some data => (sv.onFrameReceived codec crypto d s x data).doReadFrameHeader s

def onWritten (ok : Bool) : Server :=
  let sv := sv.modify s fun x => { x with writes := x.writes - 1 }
  if ok then sv else sv.onSessionDisconnected codec d s

/-- The function posted by `disconnect`. -/
def onDisconnect : Server :=
  sv.modify s fun x =>
    { x with disconnects := x.disconnects - 1, state := .dead, timer := none, socketOpen := false }

/-- The two handlers in `reset_ping_timer`. -/
def onTimer (x : Session) (wait : TimerWait) : Server :=
  let sv := sv.modify s fun x => { x with expired := x.expired.erase wait }
  if x.state ≠ .established then sv
  else
    match wait with
    | .timeout => sv.onSessionDisconnected codec d s
    | .interval =>
      if x.pingSent then sv.onSessionDisconnected codec d s
      else
        let sv := sv.modify s fun x =>
          { x with nextSeq := x.nextSeq + 1, pingSent := true, timer := some .timeout }
        sv.send s ⟨x.nextSeq, d.nowMs, .ping, []⟩

/-- `Listener::shutdown`. -/
def onShutdown : Server :=
  if sv.shuttingDown then sv
  else
    let sv := sv.usersBySession.keys.foldl (fun sv s => sv.disconnect s)
      { sv with shuttingDown := true, accepting := false }
    { sv with sessionsByUser := ∅, usersBySession := ∅ }

/-- The handler that the event runs. -/
def perform : Event → Server
  | .accept ip => sv.onAccept d ip
  | .acceptError => { sv with accepting := !sv.shuttingDown }
  | .handshakeDone s ok => sv.onHandshake codec d s ok
  | .headerRead s size => sv.onHeader codec d s size
  | .payloadRead s data =>
    match sv.sessions[s]? with
    | none => sv
    | some x => sv.onPayload codec crypto d s x data
  | .writeDone s ok => sv.onWritten codec d s ok
  | .disconnectRuns s => sv.onDisconnect s
  | .timerExpires s => sv.modify s fun x =>
    { x with timer := none, expired := x.expired ++ x.timer.toList }
  | .timerFires s wait =>
    match sv.sessions[s]? with
    | none => sv
    | some x => sv.onTimer codec d s x wait
  | .adminDisconnect userId =>
    if userId.isEmpty then sv
    else
      match sv.findSession userId with
      | none => sv
      | some s => sv.disconnect s
  | .setMaxConnections maxConnections => { sv with maxConnections := maxConnections }
  | .setMsgRate msgRatePerSec =>
    { sv with msgRatePerSec := msgRatePerSec, connRatePerMin := -1 }
  | .setMotd motd => { sv with motd := motd }
  | .cleanup =>
    let db := OfflineStore.cleanupExpired sv.db d.nowUnix
    { sv with db := FileStore.cleanupExpired db d.nowUnix }
  | .shutdown => sv.onShutdown

/-- An event that cannot happen changes nothing. -/
def step (sv : Server) (i : Input) : Server :=
  if sv.enabled i.event then sv.perform codec crypto i.draws i.event else sv

end Server

/-! ## What a client sends -/

/-- The session `s` reads a frame. -/
def frameEvents (s : SessionId) (type : MessageType) (payload : Bytes) : List Event :=
  let data := Codec.proto3.envelope.serialize ⟨0, 0, type, payload⟩
  [.headerRead s (some (.ofNat data.length)), .payloadRead s (some data)]

/-- The public key to the seed of 32 zeros. -/
def zeroSeedKey : Bytes :=
  [59, 106, 39, 188, 206, 182, 164, 45, 98, 163, 168, 208, 42, 111, 13, 115, 101, 50, 21, 119, 29,
    226, 67, 166, 58, 192, 72, 161, 139, 89, 218, 41]

/-- A client that has this key connects, and authenticates with its signature. -/
def loginEvents (s : SessionId) (userId : Str) (signature : Bytes) : List Event :=
  [.accept (str "127.0.0.1"), .handshakeDone s true] ++
    frameEvents s .hello (Codec.proto3.hello.serialize ⟨1, []⟩) ++
    frameEvents s .authResponse
      (Codec.proto3.authResponse.serialize ⟨userId, zeroSeedKey, signature, [], [], []⟩)

/-- The verdicts of libsodium when only that challenge of zeros was signed. -/
def loginCrypto (userId : Str) (signature : Bytes) : Crypto :=
  .ofSignatures [(signature, List.replicate 32 0 ++ userId, zeroSeedKey)]

end Ircord

import IrcordServer.Net.FileTransfer
import IrcordServer.Net.Handlers

/-!
# Received frames

`on_frame_received` and `handle_envelope` of `net/session.cpp`: which handler an envelope gets to.
-/

namespace Ircord

namespace Server

variable (codec : Codec) (crypto : Crypto) (d : Draws) (sv : Server) (s : SessionId) (x : Session)

/-- A case of `handle_envelope` whose handler takes a message that has to parse. -/
def handlePayload {α : Type} (env : Envelope) (wire : Wire α) (code : UInt32) (message : String)
    (handle : α → Server) : Server :=
  match env.parsePayload wire with
  | none => sv.sendError codec d s code message
  | some m => handle m

/-- A case of `handle_envelope` that answers clients before authentication. -/
def ifAuthenticated (code : UInt32) (handled : Server) : Server :=
  if x.state = .established then handled else sv.sendError codec d s code "Not authenticated"

/-- The limit on chat messages and voice signals. -/
def ifAllowed (handled : Server → Server) : Server :=
  match sv.allowMessage d s x with
  | (false, sv) => sv.sendError codec d s 4290 "Rate limit exceeded"
  | (true, sv) => handled sv

/-- `MT_FILE_UPLOAD`: a chunk if it parses as one and has data, else a request. -/
def handleFileUploadPayload (env : Envelope) : Server :=
  if env.payload.isEmpty then sv.sendError codec d s 4080 "Empty FILE_UPLOAD"
  else
    match (codec.fileUploadChunk.parse env.payload).filter fun chunk => !chunk.data.isEmpty with
    | some chunk => sv.handleFileUpload codec d s x chunk
    | none =>
      match codec.fileUploadRequest.parse env.payload with
      | some req => sv.handleFileRequest codec d s x req
      | none => sv.sendError codec d s 4082 "Invalid FILE_UPLOAD"

/-- `handle_envelope`. -/
def handleEnvelope (env : Envelope) : Server :=
  match env.type with
  | .hello =>
    if x.state = .hello then
      match env.parsePayload codec.hello with
      | none => (sv.sendError codec d s 4003 "Invalid HELLO message").disconnect s
      | some hello => sv.handleHello codec d s hello
    else sv
  | .authResponse =>
    if x.state = .authPending then
      match env.parsePayload codec.authResponse with
      | none => (sv.sendError codec d s 4004 "Invalid AUTH_RESPONSE").disconnect s
      | some auth => sv.handleAuthResponse codec crypto d s x auth
    else sv
  | .ping => if x.state = .established then sv.handlePing d s x env else sv
  | .pong => sv.modify s fun x => { x.resetPingTimer with pingSent := false }
  | .chatEnvelope =>
    sv.ifAuthenticated codec d s x 4031 <| sv.ifAllowed codec d s x fun sv =>
      sv.handlePayload codec d s env codec.chatEnvelope 4030 "Invalid CHAT_ENVELOPE" fun chat =>
        sv.handleChat codec d s x chat env
  | .voiceSignal =>
    sv.ifAuthenticated codec d s x 4071 <| sv.ifAllowed codec d s x fun sv =>
      sv.handlePayload codec d s env codec.voiceSignal 4070 "Invalid VOICE_SIGNAL" fun vs =>
        sv.handleVoiceSignal codec d s x vs env
  | .voiceRoomJoin =>
    if x.state = .established then
      sv.handlePayload codec d s env codec.voiceRoomJoin 4075 "Invalid VOICE_ROOM_JOIN" fun join =>
        sv.handleVoiceRoomJoin codec d s x join
    else sv
  | .voiceRoomLeave =>
    if x.state = .established then
      sv.handlePayload codec d s env codec.voiceRoomLeave 4076 "Invalid VOICE_ROOM_LEAVE"
        fun leave => sv.handleVoiceRoomLeave codec x leave
    else sv
  | .keyUpload =>
    sv.ifAuthenticated codec d s x 4041 <|
      sv.handlePayload codec d s env codec.keyUpload 4040 "Invalid KEY_UPLOAD" fun ku =>
        sv.handleKeyUpload d x ku
  | .keyRequest =>
    sv.ifAuthenticated codec d s x 4051 <|
      sv.handlePayload codec d s env codec.keyRequest 4050 "Invalid KEY_REQUEST" fun kr =>
        sv.handleKeyRequest codec d s kr
  | .command =>
    sv.ifAuthenticated codec d s x 4061 <|
      sv.handlePayload codec d s env codec.ircCommand 4060 "Invalid COMMAND" fun cmd =>
        sv.handleCommand codec crypto d s x cmd
  | .fileUpload =>
    sv.ifAuthenticated codec d s x 4081 <| sv.handleFileUploadPayload codec d s x env
  | .fileDownload =>
    sv.ifAuthenticated codec d s x 4087 <|
      sv.handlePayload codec d s env codec.fileDownloadRequest 4086 "Invalid FILE_DOWNLOAD"
        fun req => sv.handleFileDownload codec d s req
  | _ => sv

/-- `on_frame_received`. -/
def onFrameReceived (data : Bytes) : Server :=
  match codec.envelope.parse data with
  | none => sv.sendError codec d s 4002 "Invalid protobuf"
  | some env => sv.handleEnvelope codec crypto d s x env

end Server

end Ircord

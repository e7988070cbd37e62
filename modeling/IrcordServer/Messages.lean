import IrcordServer.Text
import Mathlib.Data.Rat.Defs

/-!
# Protocol messages

The messages of `ircord.proto` that the server reads or builds, and the codec between a message
and its bytes.  The generated protobuf code is a parameter (`Codec`): one parser and one serializer
for each message type.  `FileProgress.percentComplete` is kept as the quotient the server computes,
before it is rounded to a `float`.
-/

namespace Ircord

/-- `MessageType`; proto3 enumerations are open, so an unlisted number keeps its value. -/
inductive MessageType
  | hello | authChallenge | authResponse | authOk | authFail
  | chatEnvelope
  | keyUpload | keyRequest | keyBundle
  | presence
  | voiceSignal | voiceRoomJoin | voiceRoomLeave | voiceRoomState
  | ping | pong
  | command | commandResponse | nickChange
  | fileUpload | fileDownload | fileChunk | fileProgress | fileComplete | fileError
  | motd
  | error
  | other (code : ℕ)
  deriving DecidableEq

structure Envelope where
  seq : ℕ
  timestampMs : ℤ
  type : MessageType
  payload : Bytes
  deriving DecidableEq

structure Hello where
  protocolVersion : UInt32
  clientVersion : Str
  deriving DecidableEq

structure AuthChallenge where
  nonce : Bytes
  deriving DecidableEq

structure AuthResponse where
  userId : Str
  identityPub : Bytes
  signature : Bytes
  signedPrekey : Bytes
  spkSig : Bytes
  password : Str
  deriving DecidableEq

structure KeyBundle where
  identityPub : Bytes
  signedPrekey : Bytes
  spkSignature : Bytes
  oneTimePrekey : Bytes
  recipientFor : Str
  deriving DecidableEq

structure KeyUpload where
  signedPrekey : Bytes
  spkSignature : Bytes
  oneTimePrekeys : List Bytes
  deriving DecidableEq

structure KeyRequest where
  userId : Str
  deriving DecidableEq

structure ChatEnvelope where
  senderId : Str
  recipientId : Str
  deriving DecidableEq

inductive PresenceStatus
  | offline | online | away
  deriving DecidableEq

structure PresenceUpdate where
  userId : Str
  status : PresenceStatus
  deriving DecidableEq

inductive SignalType
  | offer | answer | iceCandidate | callInvite | callAccept | callReject | callHangup
  | other (code : ℕ)
  deriving DecidableEq

structure VoiceSignal where
  fromUser : Str
  toUser : Str
  signalType : SignalType
  deriving DecidableEq

structure VoiceRoomJoin where
  channelId : Str
  userId : Str
  deriving DecidableEq

structure VoiceRoomLeave where
  channelId : Str
  userId : Str
  deriving DecidableEq

structure VoiceRoomState where
  channelId : Str
  participants : List Str
  deriving DecidableEq

/-- The message `Error`. -/
structure ErrorMessage where
  code : UInt32
  message : Str
  deriving DecidableEq

structure IrcCommand where
  command : Str
  args : List Str
  deriving DecidableEq

structure CommandResponse where
  success : Bool
  message : Str
  command : Str
  deriving DecidableEq

structure NickChange where
  oldNick : Str
  newNick : Str
  deriving DecidableEq

structure UserInfo where
  userId : Str
  nickname : Str
  isOnline : Bool
  channels : List Str
  deriving DecidableEq

structure FileUploadRequest where
  fileId : Str
  filename : Str
  fileSize : UInt64
  mimeType : Str
  recipientId : Str
  channelId : Str
  chunkSize : UInt32
  deriving DecidableEq

structure FileUploadChunk where
  fileId : Str
  chunkIndex : UInt32
  data : Bytes
  isLast : Bool
  deriving DecidableEq

structure FileDownloadRequest where
  fileId : Str
  chunkIndex : UInt32
  deriving DecidableEq

structure FileChunk where
  fileId : Str
  chunkIndex : UInt32
  data : Bytes
  isLast : Bool
  deriving DecidableEq

structure FileProgress where
  fileId : Str
  bytesTransferred : ℕ
  totalBytes : ℕ
  percentComplete : ℚ
  status : Str
  deriving DecidableEq

structure FileComplete where
  fileId : Str
  totalBytes : ℕ
  deriving DecidableEq

structure FileError where
  fileId : Str
  errorCode : UInt32
  errorMessage : Str
  deriving DecidableEq

structure MotdMessage where
  lines : List Str
  deriving DecidableEq

/-- `ParseFromArray` and `SerializeToArray` of one message type. -/
structure Wire (α : Type) where
  parse : Bytes → Option α
  serialize : α → Bytes

/-- The generated protobuf code. -/
structure Codec where
  envelope : Wire Envelope
  hello : Wire Hello
  authChallenge : Wire AuthChallenge
  authResponse : Wire AuthResponse
  keyBundle : Wire KeyBundle
  keyUpload : Wire KeyUpload
  keyRequest : Wire KeyRequest
  chatEnvelope : Wire ChatEnvelope
  presenceUpdate : Wire PresenceUpdate
  voiceSignal : Wire VoiceSignal
  voiceRoomJoin : Wire VoiceRoomJoin
  voiceRoomLeave : Wire VoiceRoomLeave
  voiceRoomState : Wire VoiceRoomState
  errorMessage : Wire ErrorMessage
  ircCommand : Wire IrcCommand
  commandResponse : Wire CommandResponse
  nickChange : Wire NickChange
  userInfo : Wire UserInfo
  fileUploadRequest : Wire FileUploadRequest
  fileUploadChunk : Wire FileUploadChunk
  fileDownloadRequest : Wire FileDownloadRequest
  fileChunk : Wire FileChunk
  fileProgress : Wire FileProgress
  fileComplete : Wire FileComplete
  fileError : Wire FileError
  motdMessage : Wire MotdMessage

/-- An open connection. -/
abbrev SessionId := ℕ

end Ircord

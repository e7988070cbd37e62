import IrcordServer.Messages
import IrcordServer.Protobuf
import Mathlib.Data.Rat.Floor

/-!
# The codec of `ircord.proto`

A concrete instance of `Codec`, every message as its protobuf fields, to run the server on.  It has
the bytes of messages as they are serialized.  Of other bytes it is not what the protobuf library
makes: numbers of an enumeration are not cut to 32 bits, groups are refused and overlong tags are
not, and a `float` keeps its exact value until it is written.  Fields that the server neither reads
nor sets are skipped when they are read.
-/

open Protobuf

namespace Ircord

/-- A message type from its fields to be written and from the fields that were read. -/
def Wire.ofFields {α : Type} (fields : α → List Field) (read : List Field → Option α) : Wire α where
  parse b := (decode b).bind read
  serialize a := encode (fields a)

/-! ## Enumerations -/

namespace MessageType

/-- The numbers of the enumeration `MessageType`. -/
def code : MessageType → ℕ
  | hello => 1 | authChallenge => 2 | authResponse => 3 | authOk => 4 | authFail => 5
  | chatEnvelope => 10
  | keyUpload => 20 | keyRequest => 21 | keyBundle => 22
  | presence => 30
  | voiceSignal => 40 | voiceRoomJoin => 41 | voiceRoomLeave => 42 | voiceRoomState => 43
  | command => 60 | commandResponse => 61 | nickChange => 62
  | motd => 75
  | fileUpload => 80 | fileDownload => 81 | fileChunk => 82 | fileProgress => 83
  | fileComplete => 84 | fileError => 85
  | ping => 90 | pong => 91
  | error => 99
  | other code => code

def listed : List MessageType :=
  [hello, authChallenge, authResponse, authOk, authFail, chatEnvelope, keyUpload, keyRequest,
    keyBundle, presence, voiceSignal, voiceRoomJoin, voiceRoomLeave, voiceRoomState, command,
    commandResponse, nickChange, motd, fileUpload, fileDownload, fileChunk, fileProgress,
    fileComplete, fileError, ping, pong, error]

def ofCode (n : ℕ) : MessageType := (listed.find? fun t => t.code == n).getD (other n)

end MessageType

namespace SignalType

def code : SignalType → ℕ
  | offer => 0 | answer => 1 | iceCandidate => 2 | callInvite => 3 | callAccept => 4
  | callReject => 5 | callHangup => 6
  | other code => code

def ofCode (n : ℕ) : SignalType :=
  ([offer, answer, iceCandidate, callInvite, callAccept, callReject, callHangup].find?
    fun t => t.code == n).getD (other n)

end SignalType

namespace PresenceStatus

def code : PresenceStatus → ℕ
  | offline => 0 | online => 1 | away => 2

def ofCode : ℕ → Option PresenceStatus
  | 0 => some offline
  | 1 => some online
  | 2 => some away
  | _ => none

end PresenceStatus

/-! ## `float` -/

/-- The binary exponent of `q`, searched from `2 ^ e` downwards. -/
def floatExponent (q : ℚ) : ℕ → ℤ → ℤ
  | 0, e => e
  | k + 1, e => if (2 : ℚ) ^ e ≤ q then e else floatExponent q k (e - 1)

/-- A nonnegative number as the bits of the nearest `float`, ties to even. -/
def floatBits (q : ℚ) : ℕ :=
  if q ≤ 0 then 0
  else
    let e := max (floatExponent q 300 127) (-126)
    let scaled := q / (2 : ℚ) ^ (e - 23)
    let low := ⌊scaled⌋
    let half := scaled - low
    let mantissa := if half > 1 / 2 ∨ (half = 1 / 2 ∧ low % 2 = 1) then low + 1 else low
    ((e + 126) * 2 ^ 23 + mantissa).toNat

def floatBytes (q : ℚ) : Bytes :=
  let n := floatBits q
  [UInt8.ofNat n, UInt8.ofNat (n / 2 ^ 8), UInt8.ofNat (n / 2 ^ 16), UInt8.ofNat (n / 2 ^ 24)]

/-- The value of a nonnegative `float`. -/
def floatOfBytes (b : Bytes) : ℚ :=
  let n : ℕ := b.foldr (fun c n => c.toNat + 256 * n) 0
  let e : ℕ := n / 2 ^ 23 % 2 ^ 8
  let mantissa : ℕ := n % 2 ^ 23
  if e = 0 then mantissa * (2 : ℚ) ^ (-149 : ℤ)
  else ((2 ^ 23 + mantissa : ℕ) : ℚ) * (2 : ℚ) ^ ((e : ℤ) - 150)

/-! ## Messages -/

/-- A 64-bit number as the unsigned number with the same bits. -/
def toUInt64 (n : ℤ) : ℕ := (n % 2 ^ 64).toNat

def Codec.proto3 : Codec where
  envelope := .ofFields
    (fun m => uint 1 m.seq ++ uint 2 (toUInt64 m.timestampMs) ++ uint 3 m.type.code ++
      bytes 4 m.payload)
    (fun fs => some ⟨getUint fs 1, getUint fs 2, .ofCode (getUint fs 3), getBytes fs 4⟩)
  hello := .ofFields
    (fun m => uint 1 m.protocolVersion.toNat ++ bytes 2 m.clientVersion)
    (fun fs => do
      let clientVersion ← getString fs 2
      return ⟨.ofNat (getUint fs 1), clientVersion⟩)
  authChallenge := .ofFields (fun m => bytes 1 m.nonce) (fun fs => some ⟨getBytes fs 1⟩)
  authResponse := .ofFields
    (fun m => bytes 1 m.userId ++ bytes 2 m.identityPub ++ bytes 3 m.signature ++
      bytes 4 m.signedPrekey ++ bytes 5 m.spkSig ++ bytes 6 m.password)
    (fun fs => do
      let userId ← getString fs 1
      let password ← getString fs 6
      return ⟨userId, getBytes fs 2, getBytes fs 3, getBytes fs 4, getBytes fs 5, password⟩)
  keyBundle := .ofFields
    (fun m => bytes 1 m.identityPub ++ bytes 2 m.signedPrekey ++ bytes 3 m.spkSignature ++
      bytes 5 m.oneTimePrekey ++ bytes 7 m.recipientFor)
    (fun fs => do
      let recipientFor ← getString fs 7
      return ⟨getBytes fs 1, getBytes fs 2, getBytes fs 3, getBytes fs 5, recipientFor⟩)
  keyUpload := .ofFields
    (fun m => bytes 1 m.signedPrekey ++ bytes 2 m.spkSignature ++ repeatedBytes 4 m.oneTimePrekeys)
    (fun fs => some ⟨getBytes fs 1, getBytes fs 2, getRepeatedBytes fs 4⟩)
  keyRequest := .ofFields (fun m => bytes 1 m.userId) (fun fs => do return ⟨← getString fs 1⟩)
  chatEnvelope := .ofFields
    (fun m => bytes 1 m.senderId ++ bytes 2 m.recipientId)
    (fun fs => do return ⟨← getString fs 1, ← getString fs 2⟩)
  presenceUpdate := .ofFields
    (fun m => bytes 1 m.userId ++ uint 2 m.status.code)
    (fun fs => do return ⟨← getString fs 1, ← PresenceStatus.ofCode (getUint fs 2)⟩)
  voiceSignal := .ofFields
    (fun m => bytes 1 m.fromUser ++ bytes 2 m.toUser ++ uint 3 m.signalType.code)
    (fun fs => do return ⟨← getString fs 1, ← getString fs 2, .ofCode (getUint fs 3)⟩)
  voiceRoomJoin := .ofFields
    (fun m => bytes 1 m.channelId ++ bytes 2 m.userId)
    (fun fs => do return ⟨← getString fs 1, ← getString fs 2⟩)
  voiceRoomLeave := .ofFields
    (fun m => bytes 1 m.channelId ++ bytes 2 m.userId)
    (fun fs => do return ⟨← getString fs 1, ← getString fs 2⟩)
  voiceRoomState := .ofFields
    (fun m => bytes 1 m.channelId ++ repeatedBytes 2 m.participants)
    (fun fs => do return ⟨← getString fs 1, ← getRepeatedStrings fs 2⟩)
  errorMessage := .ofFields
    (fun m => uint 1 m.code.toNat ++ bytes 2 m.message)
    (fun fs => do return ⟨.ofNat (getUint fs 1), ← getString fs 2⟩)
  ircCommand := .ofFields
    (fun m => bytes 1 m.command ++ repeatedBytes 2 m.args)
    (fun fs => do return ⟨← getString fs 1, ← getRepeatedStrings fs 2⟩)
  commandResponse := .ofFields
    (fun m => flag 1 m.success ++ bytes 2 m.message ++ bytes 3 m.command)
    (fun fs => do return ⟨getBool fs 1, ← getString fs 2, ← getString fs 3⟩)
  nickChange := .ofFields
    (fun m => bytes 1 m.oldNick ++ bytes 2 m.newNick)
    (fun fs => do return ⟨← getString fs 1, ← getString fs 2⟩)
  userInfo := .ofFields
    (fun m => bytes 1 m.userId ++ bytes 2 m.nickname ++ flag 3 m.isOnline ++
      repeatedBytes 4 m.channels)
    (fun fs => do
      return ⟨← getString fs 1, ← getString fs 2, getBool fs 3, ← getRepeatedStrings fs 4⟩)
  fileUploadRequest := .ofFields
    (fun m => bytes 1 m.fileId ++ bytes 2 m.filename ++ uint 3 m.fileSize.toNat ++
      bytes 4 m.mimeType ++ bytes 5 m.recipientId ++ bytes 6 m.channelId ++
      uint 7 m.chunkSize.toNat)
    (fun fs => do
      return ⟨← getString fs 1, ← getString fs 2, .ofNat (getUint fs 3), ← getString fs 4,
        ← getString fs 5, ← getString fs 6, .ofNat (getUint fs 7)⟩)
  fileUploadChunk := .ofFields
    (fun m => bytes 1 m.fileId ++ uint 2 m.chunkIndex.toNat ++ bytes 3 m.data ++ flag 4 m.isLast)
    (fun fs => do
      return ⟨← getString fs 1, .ofNat (getUint fs 2), getBytes fs 3, getBool fs 4⟩)
  fileDownloadRequest := .ofFields
    (fun m => bytes 1 m.fileId ++ uint 2 m.chunkIndex.toNat)
    (fun fs => do return ⟨← getString fs 1, .ofNat (getUint fs 2)⟩)
  fileChunk := .ofFields
    (fun m => bytes 1 m.fileId ++ uint 2 m.chunkIndex.toNat ++ bytes 3 m.data ++ flag 4 m.isLast)
    (fun fs => do
      return ⟨← getString fs 1, .ofNat (getUint fs 2), getBytes fs 3, getBool fs 4⟩)
  fileProgress := .ofFields
    (fun m => bytes 1 m.fileId ++ uint 2 m.bytesTransferred ++ uint 3 m.totalBytes ++
      (if m.percentComplete = 0 then [] else [(4, .fixed32 (floatBytes m.percentComplete))]) ++
      bytes 5 m.status)
    (fun fs => do
      return ⟨← getString fs 1, getUint fs 2, getUint fs 3, floatOfBytes (getFixed32 fs 4),
        ← getString fs 5⟩)
  fileComplete := .ofFields
    (fun m => bytes 1 m.fileId ++ uint 3 m.totalBytes)
    (fun fs => do return ⟨← getString fs 1, getUint fs 3⟩)
  fileError := .ofFields
    (fun m => bytes 1 m.fileId ++ uint 2 m.errorCode.toNat ++ bytes 3 m.errorMessage)
    (fun fs => do return ⟨← getString fs 1, .ofNat (getUint fs 2), ← getString fs 3⟩)
  motdMessage := .ofFields
    (fun m => repeatedBytes 1 m.lines)
    (fun fs => do return ⟨← getRepeatedStrings fs 1⟩)

end Ircord

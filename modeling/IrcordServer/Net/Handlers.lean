import IrcordServer.Net.Server

/-!
# Envelope handlers

The handlers of `net/session.cpp`, from a received frame to the tables and the other sessions.  A
handler runs for the session `s`, whose record it finds as `x`.  What a handler throws is caught
around it, so a handler that throws ends there.
-/

open Container

namespace Ircord

/-- `is_valid_user_id`: 1 to 64 bytes, neither blanks nor control characters. -/
def isValidUserId (id : Str) : Bool :=
  !id.isEmpty && id.length ≤ 64 && id.all fun c => c != 0 && c != ch ' ' && !(c < 0x20)

/-- `crypto_sign_PUBLICKEYBYTES`. -/
def publicKeyBytes : ℕ := 32

/-- `crypto_sign_BYTES`. -/
def signatureBytes : ℕ := 64

/-- The payload of an envelope; an empty one is not parsed. -/
def Envelope.parsePayload {α : Type} (env : Envelope) (wire : Wire α) : Option α :=
  if env.payload.isEmpty then none else wire.parse env.payload

/-! ## The tables during authentication -/

/-- How `handle_auth_response` goes on after the user was looked up and registered or verified. -/
inductive AuthVerdict
  | accept (db : Database)
  | fail (code : UInt32) (message : String)
  /-- The new user could not be inserted. -/
  | insertFailed
  /-- A later statement threw. -/
  | threw (db : Database)

section Verdict

variable (crypto : Crypto) (d : Draws) (db : Database) (auth : AuthResponse)

/-- The signed pre-key, if there is one. -/
def storeSignedPrekey : Except SqlError Database :=
  if auth.signedPrekey.isEmpty || auth.spkSig.isEmpty then .ok db
  else UserStore.upsertSignedPrekey db auth.userId auth.signedPrekey auth.spkSig d.nowUnix

/-- A new user is registered. -/
def registerUser : AuthVerdict :=
  match UserStore.insert db ⟨auth.userId, auth.identityPub, d.nowUnix⟩ with
  | .error _ => .insertFailed
  | .ok db =>
    match storeSignedPrekey d db auth with
    | .error _ => .threw db
    | .ok db =>
      if auth.password.isEmpty then .accept db
      else .accept (UserStore.setPassword db auth.userId d.pwhash).2

/-- A known user came with another key: the password decides. -/
def recoverIdentityKey : AuthVerdict :=
  if !auth.password.isEmpty && UserStore.hasPassword db auth.userId then
    if UserStore.verifyPassword db crypto auth.userId auth.password then
      let db := UserStore.clearKeyMaterial db auth.userId
      match UserStore.updateIdentityKey db auth.userId auth.identityPub with
      | .error _ => .threw db
      | .ok db =>
        match storeSignedPrekey d db auth with
        | .error _ => .threw db
        | .ok db => .accept db
    else .fail 4012 "Identity key mismatch and password incorrect"
  else
    .fail 4010
      "Identity key mismatch. Set a password with /password to enable key recovery."

def registerOrVerify : AuthVerdict :=
  match UserStore.findById db auth.userId with
  | none => registerUser d db auth
  | some existing =>
    if existing.identityPub ≠ auth.identityPub then recoverIdentityKey crypto d db auth
    else if !auth.password.isEmpty && !UserStore.hasPassword db auth.userId then
      .accept (UserStore.setPassword db auth.userId d.pwhash).2
    else .accept db

end Verdict

namespace Server

variable (codec : Codec) (crypto : Crypto) (d : Draws) (sv : Server) (s : SessionId) (x : Session)

/-! ## Authentication -/

def handleHello (hello : Hello) : Server :=
  if hello.protocolVersion ≠ Session.protocolVersion then
    (sv.sendError codec d s 4005 "Protocol version mismatch").disconnect s
  else
    let sv := sv.modify s fun x => { x with authNonce := d.nonce }
    let sv := sv.sendEnvelope d s .authChallenge (codec.authChallenge.serialize ⟨d.nonce⟩)
    sv.modify s fun x => { x with state := .authPending }

/-- An `AUTH_FAIL` and the end of the connection. -/
def authFail (code : UInt32) (message : Str) : Server :=
  (sv.sendEnvelope d s .authFail (codec.errorMessage.serialize ⟨code, message⟩)).disconnect s

/-- The message that comes first on a new session, if one is configured. -/
def sendMotd : Server :=
  if sv.motd.isEmpty then sv
  else sv.sendEnvelope d s .motd (codec.motdMessage.serialize ⟨getLines sv.motd⟩)

/-- The offline messages of the user; a payload that does not parse is dropped. -/
def deliverOffline (userId : Str) : Server :=
  let (payloads, db) := OfflineStore.fetchAndDelete sv.db userId d.nowUnix
  (payloads.filterMap codec.envelope.parse).foldl (fun sv env => sv.send s env)
    { sv with db := db }

/-- From `// --- Auth success ---` to the message of the day. -/
def enterEstablished (userId : Str) : Server :=
  let sv := sv.modify s fun x => { x with userId := userId }
  let sv := sv.sendEnvelope d s .authOk []
  let sv := sv.modify s fun x => { x with state := .established }
  sv.sendMotd codec d s

/-- From `start_ping_timer` to the end of `handle_auth_response`. -/
def startTraffic (userId : Str) : Server :=
  let sv := sv.modify s Session.startPingTimer
  let limiter := RateLimiter.new sv.msgRatePerSec (seconds 1) d.now
  let sv := sv.modify s fun x => { x with msgRateLimiter := some limiter }
  let sv := sv.deliverOffline codec d s userId
  sv.broadcastPresence codec d ⟨userId, .online⟩ (some s)

/-- The successful end of `handle_auth_response`. -/
def establish (userId : Str) : Server :=
  let sv := sv.enterEstablished codec d s userId
  let sv := sv.onSessionAuthenticated codec d s userId
  sv.startTraffic codec d s userId

def onVerdict (userId : Str) : AuthVerdict → Server
  | .accept db => establish codec d { sv with db := db } s userId
  | .fail code message => sv.authFail codec d s code (str message)
  | .insertFailed => (sv.sendError codec d s 5001 "Internal error").disconnect s
  | .threw db => { sv with db := db }

def handleAuthResponse (auth : AuthResponse) : Server :=
  if !isValidUserId auth.userId then
    (sv.sendError codec d s 4006 "Invalid user_id (1-64 printable chars, no spaces)").disconnect s
  else if !sv.isNicknameAvailable auth.userId then
    let suggestions := formatNickSuggestions (generateNickSuggestions auth.userId 3)
    sv.authFail codec d s 4011
      (str "Nickname '" ++ auth.userId ++ str "' is already in use." ++ suggestions)
  else if auth.identityPub.length ≠ publicKeyBytes then
    (sv.sendError codec d s 4007 "Invalid identity_pub length").disconnect s
  else if auth.signature.length ≠ signatureBytes then
    (sv.sendError codec d s 4008 "Invalid signature length").disconnect s
  else if !crypto.signVerifyDetached auth.signature (x.authNonce ++ auth.userId)
      auth.identityPub then
    sv.authFail codec d s 4009 (str "Signature verification failed")
  else sv.onVerdict codec d s auth.userId (registerOrVerify crypto d sv.db auth)

/-! ## Messages -/

def handlePing (env : Envelope) : Server :=
  (sv.modify s fun x => { x with nextSeq := x.nextSeq + 1 }).send s
    ⟨x.nextSeq, d.nowMs, .pong, env.payload⟩

/-- `raw` is the envelope as it was received. -/
def handleChat (chat : ChatEnvelope) (raw : Envelope) : Server :=
  if chat.senderId ≠ x.userId then
    (sv.sendError codec d s 4032 "Sender ID mismatch").disconnect s
  else if chat.recipientId.isEmpty then sv.sendError codec d s 4033 "Empty recipient_id"
  else if chat.recipientId.head? = some (ch '#') then sv.broadcast raw (some s)
  else
    match sv.findSession chat.recipientId with
    | some recipient => sv.send recipient raw
    | none =>
      match OfflineStore.save sv.db chat.recipientId (codec.envelope.serialize raw) d.nowUnix with
      | (true, db) => { sv with db := db }
      | (false, db) =>
        { sv with db := db }.sendError codec d s 4034 "Recipient offline queue full"

def handleVoiceSignal (vs : VoiceSignal) (raw : Envelope) : Server :=
  if vs.fromUser ≠ x.userId then
    (sv.sendError codec d s 4072 "from_user mismatch").disconnect s
  else if vs.toUser.isEmpty then sv.sendError codec d s 4073 "Empty to_user"
  else
    match sv.findSession vs.toUser with
    | some recipient => sv.send recipient raw
    | none =>
      if vs.signalType = .callInvite then sv.sendError codec d s 4074 "Recipient is offline"
      else sv

def handleVoiceRoomJoin (join : VoiceRoomJoin) : Server :=
  let (error, voice, actions) := sv.voice.join codec sv.findSession join.channelId x.userId
  let sv := { sv with voice := voice }.run actions
  if !error.isEmpty then
    sv.sendEnvelope d s .error (codec.errorMessage.serialize ⟨4077, error⟩)
  else sv

def handleVoiceRoomLeave (leave : VoiceRoomLeave) : Server :=
  let (voice, actions) := sv.voice.leave codec sv.findSession leave.channelId x.userId
  { sv with voice := voice }.run actions

/-- The loop over the one-time pre-keys; it ends where a statement throws. -/
def storeOpks (userId : Str) (db : Database) : List Bytes → Database
  | [] => db
  | opk :: opks =>
    match UserStore.storeOpk db userId opk with
    | .error _ => db
    | .ok db => storeOpks userId db opks

def handleKeyUpload (ku : KeyUpload) : Server :=
  let signed :=
    if ku.signedPrekey.isEmpty || ku.spkSignature.isEmpty then .ok sv.db
    else UserStore.upsertSignedPrekey sv.db x.userId ku.signedPrekey ku.spkSignature d.nowUnix
  match signed with
  | .error _ => sv
  | .ok db => { sv with db := storeOpks x.userId db ku.oneTimePrekeys }

def handleKeyRequest (kr : KeyRequest) : Server :=
  match UserStore.findById sv.db kr.userId with
  | none => sv.sendError codec d s 4060 "User not found"
  | some target =>
    let spk := UserStore.getSignedPrekey sv.db kr.userId
    let (opk, db) := UserStore.consumeOpk sv.db kr.userId
    let bundle : KeyBundle :=
      { identityPub := target.identityPub
        signedPrekey := (spk.map (·.spkPub)).getD []
        spkSignature := (spk.map (·.spkSig)).getD []
        oneTimePrekey := opk
        recipientFor := kr.userId }
    { sv with db := db }.sendEnvelope d s .keyBundle (codec.keyBundle.serialize bundle)

/-- What the command handler asks of this server. -/
def services : Services := ⟨sv.findSession, codec, crypto, d.now, d.nowUnix, d.pwhash⟩

def handleCommand (cmd : IrcCommand) : Server :=
  let outcome := sv.commands.handleCommand (sv.services codec crypto d) sv.db cmd ⟨s, x.userId⟩
  let sv := { sv with commands := outcome.handler, db := outcome.db }.run outcome.actions
  sv.send s (responseEnvelope codec outcome.response)

end Server

end Ircord

import IrcordServer.Net.Step

/-!
# What the handlers leave alone

A handler of a message changes sessions, tables, the log and the command handler.  Anything else of
the server is the same after it (`Apart`), but for the registry at a login and for the voice rooms.
-/

open Container

namespace Ircord

namespace Server

/-- `f` reads nothing of what the handlers of messages change. -/
structure Apart {α : Type} (f : Server → α) : Prop where
  sessions : ∀ (sv : Server) (sessions : List Session), f { sv with sessions := sessions } = f sv
  written : ∀ (sv : Server) (written : List (SessionId × Envelope)),
    f { sv with written := written } = f sv
  db : ∀ (sv : Server) (db : Database), f { sv with db := db } = f sv
  commands : ∀ (sv : Server) (commands : CommandHandler),
    f { sv with commands := commands } = f sv

theorem apart_voice : Apart (·.voice) :=
  ⟨fun _ _ => rfl, fun _ _ => rfl, fun _ _ => rfl, fun _ _ => rfl⟩

theorem apart_sessionsByUser : Apart (·.sessionsByUser) :=
  ⟨fun _ _ => rfl, fun _ _ => rfl, fun _ _ => rfl, fun _ _ => rfl⟩

theorem apart_usersBySession : Apart (·.usersBySession) :=
  ⟨fun _ _ => rfl, fun _ _ => rfl, fun _ _ => rfl, fun _ _ => rfl⟩

namespace Apart

variable {α : Type} {f : Server → α} {codec : Codec} {crypto : Crypto} {d : Draws} {sv : Server}
  {s : SessionId} {x : Session}

theorem modify (h : Apart f) (sv : Server) (t : SessionId) (g : Session → Session) :
    f (sv.modify t g) = f sv :=
  h.sessions sv _

theorem send (h : Apart f) (sv : Server) (t : SessionId) (env : Envelope) :
    f (sv.send t env) = f sv :=
  (h.written _ _).trans (h.modify sv t _)

theorem disconnect (h : Apart f) (sv : Server) (t : SessionId) : f (sv.disconnect t) = f sv :=
  h.modify sv t _

theorem sendEnvelope (h : Apart f) (sv : Server) (t : SessionId) (type : MessageType)
    (payload : Bytes) : f (sv.sendEnvelope d t type payload) = f sv := by
  unfold Server.sendEnvelope
  split
  · rfl
  · exact (h.send _ t _).trans (h.modify sv t _)

theorem sendError (h : Apart f) (sv : Server) (t : SessionId) (code : UInt32) (message : String) :
    f (sv.sendError codec d t code message) = f sv :=
  h.sendEnvelope sv t _ _

theorem sendError_disconnect (h : Apart f) (sv : Server) (t : SessionId) (code : UInt32)
    (message : String) : f ((sv.sendError codec d t code message).disconnect t) = f sv :=
  (h.disconnect _ t).trans (h.sendError sv t code message)

theorem authFail (h : Apart f) (sv : Server) (t : SessionId) (code : UInt32) (message : Str) :
    f (sv.authFail codec d t code message) = f sv :=
  (h.disconnect _ t).trans (h.sendEnvelope sv t _ _)

theorem foldl {β : Type} {g : Server → β → Server} (hg : ∀ sv b, f (g sv b) = f sv) (bs : List β)
    (sv : Server) : f (bs.foldl g sv) = f sv := by
  induction bs generalizing sv with
  | nil => rfl
  | cons b bs ih => exact (ih _).trans (hg sv b)

theorem broadcast (h : Apart f) (sv : Server) (env : Envelope) (exclude : Option SessionId) :
    f (sv.broadcast env exclude) = f sv :=
  foldl (fun sv t => h.send sv t env) _ sv

theorem run (h : Apart f) (sv : Server) (actions : List Action) : f (sv.run actions) = f sv := by
  refine foldl (fun sv a => ?_) actions sv
  cases a with
  | send t env => exact h.send sv t env
  | disconnect t reason => exact h.disconnect sv t

theorem allowMessage (h : Apart f) {allowed : Bool} {sv' : Server}
    (hallow : sv.allowMessage d s x = (allowed, sv')) : f sv' = f sv := by
  unfold Server.allowMessage at hallow
  split at hallow
  · cases hallow
    rfl
  · cases hallow
    exact h.modify sv s _

theorem doReadFrameHeader (h : Apart f) (sv : Server) (t : SessionId) :
    f (sv.doReadFrameHeader t) = f sv :=
  h.modify sv t _

/-! ## Messages -/

theorem handleChat (h : Apart f) (chat : ChatEnvelope) (raw : Envelope) :
    f (sv.handleChat codec d s x chat raw) = f sv := by
  unfold Server.handleChat
  split_ifs
  · exact h.sendError_disconnect sv s _ _
  · exact h.sendError sv s _ _
  · exact h.broadcast sv raw _
  · split
    · exact h.send sv _ raw
    · split
      · exact h.db sv _
      · exact (h.sendError _ s _ _).trans (h.db sv _)

theorem handleVoiceSignal (h : Apart f) (vs : VoiceSignal) (raw : Envelope) :
    f (sv.handleVoiceSignal codec d s x vs raw) = f sv := by
  unfold Server.handleVoiceSignal
  split_ifs
  · exact h.sendError_disconnect sv s _ _
  · exact h.sendError sv s _ _
  · split
    · exact h.send sv _ raw
    · exact h.sendError sv s _ _
  · split
    · exact h.send sv _ raw
    · rfl

theorem handleKeyUpload (h : Apart f) (ku : KeyUpload) : f (sv.handleKeyUpload d x ku) = f sv := by
  unfold Server.handleKeyUpload
  dsimp only
  split
  · rfl
  · exact h.db sv _

theorem handleKeyRequest (h : Apart f) (kr : KeyRequest) :
    f (sv.handleKeyRequest codec d s kr) = f sv := by
  unfold Server.handleKeyRequest
  split
  · exact h.sendError sv s _ _
  · exact (h.sendEnvelope _ s _ _).trans (h.db sv _)

theorem handleCommand (h : Apart f) (cmd : IrcCommand) :
    f (sv.handleCommand codec crypto d s x cmd) = f sv := by
  unfold Server.handleCommand
  generalize sv.commands.handleCommand (sv.services codec crypto d) sv.db cmd ⟨s, x.userId⟩ =
    outcome
  have hset : f { sv with commands := outcome.handler, db := outcome.db } = f sv :=
    (h.db { sv with commands := outcome.handler } _).trans (h.commands sv _)
  exact (h.send _ s _).trans ((h.run _ _).trans hset)

/-! ## File transfer -/

theorem sendFileError (h : Apart f) (sv : Server) (fileId : Str) (code : UInt32) (message : Str) :
    f (sv.sendFileError codec d s fileId code message) = f sv :=
  h.sendEnvelope sv s _ _

theorem handleFileRequest (h : Apart f) (req : FileUploadRequest) :
    f (sv.handleFileRequest codec d s x req) = f sv := by
  unfold Server.handleFileRequest
  split
  · exact h.sendFileError sv _ _ _
  · split
    · exact h.sendFileError sv _ _ _
    · dsimp only
      split
      · exact (h.sendFileError _ _ _ _).trans (h.db sv _)
      · exact (h.sendEnvelope _ s _ _).trans ((h.modify _ s _).trans (h.db sv _))

theorem finishUpload (h : Apart f) (sv : Server) (fileId : Str) (upload : FileUploadState) :
    f (sv.finishUpload codec d s fileId upload) = f sv := by
  unfold Server.finishUpload
  dsimp only
  split_ifs
  · exact (h.modify _ s _).trans ((h.sendFileError _ _ _ _).trans (h.db sv _))
  · exact (h.modify _ s _).trans ((h.sendEnvelope _ s _ _).trans (h.db sv _))

theorem handleFileUpload (h : Apart f) (chunk : FileUploadChunk) :
    f (sv.handleFileUpload codec d s x chunk) = f sv := by
  unfold Server.handleFileUpload
  split
  · rename_i sv' hallow
    exact (h.sendFileError sv' _ _ _).trans (h.allowMessage hallow)
  · rename_i sv' hallow
    refine Eq.trans ?_ (h.allowMessage hallow)
    split
    · exact h.sendFileError sv' _ _ _
    · split
      · exact h.sendFileError sv' _ _ _
      · split
        · exact (h.sendFileError _ _ _ _).trans (h.db sv' _)
        · have hprogress (sv : Server) (fileId : Str) (bytes total : ℕ) (status : String) :
              f (sv.sendFileProgress codec d s fileId bytes total status) = f sv :=
            h.sendEnvelope sv s _ _
          have hstored {g : Session → Session} {db : Database} :
              f ({ sv' with db := db }.modify s g) = f sv' := (h.modify _ s g).trans (h.db sv' db)
          dsimp only
          split
          · exact (h.finishUpload _ _ _).trans ((hprogress _ _ _ _ _).trans hstored)
          · exact (hprogress _ _ _ _ _).trans hstored

theorem sendChunks (h : Apart f) (fileId : Str) (fileSize totalChunks n i : ℕ) (sv : Server) :
    f (sendChunks codec d s fileId fileSize totalChunks n i sv) = f sv := by
  induction n generalizing i sv with
  | zero => rfl
  | succ n ih =>
    unfold Server.sendChunks
    split
    · exact h.sendFileError sv _ _ _
    · exact (ih _ _).trans ((h.sendEnvelope _ s _ _).trans (h.sendEnvelope sv s _ _))

theorem handleFileDownload (h : Apart f) (req : FileDownloadRequest) :
    f (sv.handleFileDownload codec d s req) = f sv := by
  unfold Server.handleFileDownload
  split
  · exact h.sendFileError sv _ _ _
  · exact h.sendChunks _ _ _ _ _ sv

theorem handleFileUploadPayload (h : Apart f) (env : Envelope) :
    f (sv.handleFileUploadPayload codec d s x env) = f sv := by
  unfold Server.handleFileUploadPayload
  split_ifs
  · exact h.sendError sv s _ _
  · split
    · exact h.handleFileUpload _
    · split
      · exact h.handleFileRequest _
      · exact h.sendError sv s _ _

/-! ## Authentication -/

theorem handleHello (h : Apart f) (hello : Hello) : f (sv.handleHello codec d s hello) = f sv := by
  unfold Server.handleHello
  split_ifs
  · exact h.sendError_disconnect sv s _ _
  · exact (h.modify _ s _).trans ((h.sendEnvelope _ s _ _).trans (h.modify sv s _))

theorem enterEstablished (h : Apart f) (sv : Server) (userId : Str) :
    f (sv.enterEstablished codec d s userId) = f sv := by
  have hmotd (sv : Server) : f (sv.sendMotd codec d s) = f sv := by
    unfold sendMotd
    split_ifs
    · rfl
    · exact h.sendEnvelope sv s _ _
  exact (hmotd _).trans ((h.modify _ s _).trans ((h.sendEnvelope _ s _ _).trans (h.modify sv s _)))

theorem startTraffic (h : Apart f) (sv : Server) (userId : Str) :
    f (sv.startTraffic codec d s userId) = f sv := by
  have hreplay (sv : Server) : f (sv.deliverOffline codec d s userId) = f sv := by
    unfold deliverOffline
    exact (foldl (fun sv env => h.send sv s env) _ _).trans (h.db sv _)
  exact (h.broadcast _ _ _).trans ((hreplay _).trans ((h.modify _ s _).trans (h.modify sv s _)))

/-- A login, when `f` does not read the registry either. -/
theorem handleAuthResponse (h : Apart f)
    (hregister : ∀ sv userId, f (sv.register s userId) = f sv) (auth : AuthResponse) :
    f (sv.handleAuthResponse codec crypto d s x auth) = f sv := by
  have hestablish (sv : Server) (userId : Str) : f (establish codec d sv s userId) = f sv := by
    have hsnapshot (sv : Server) : f (sv.onSessionAuthenticated codec d s userId) = f sv :=
      (foldl (fun sv userId => h.send sv s _) _ _).trans (hregister sv userId)
    exact (h.startTraffic _ _).trans ((hsnapshot _).trans (h.enterEstablished sv userId))
  unfold Server.handleAuthResponse
  split_ifs
  · exact h.sendError_disconnect sv s _ _
  · exact h.authFail sv s _ _
  · exact h.sendError_disconnect sv s _ _
  · exact h.sendError_disconnect sv s _ _
  · exact h.authFail sv s _ _
  · cases registerOrVerify crypto d sv.db auth with
    | accept db => exact (hestablish _ _).trans (h.db sv db)
    | fail code message => exact h.authFail sv s _ _
    | insertFailed => exact h.sendError_disconnect sv s _ _
    | threw db => exact h.db sv db

/-! ## Dispatch -/

theorem handlePayload (h : Apart f) {β : Type} (env : Envelope) (wire : Wire β) (code : UInt32)
    (message : String) {handle : β → Server} (hhandle : ∀ m, f (handle m) = f sv) :
    f (sv.handlePayload codec d s env wire code message handle) = f sv := by
  unfold Server.handlePayload
  split
  · exact h.sendError sv s _ _
  · exact hhandle _

theorem ifAuthenticated (h : Apart f) (code : UInt32) {handled : Server}
    (hhandled : f handled = f sv) : f (sv.ifAuthenticated codec d s x code handled) = f sv := by
  unfold Server.ifAuthenticated
  split_ifs
  · exact hhandled
  · exact h.sendError sv s _ _

theorem ifAllowed (h : Apart f) {handled : Server → Server}
    (hhandled : ∀ sv, f (handled sv) = f sv) :
    f (sv.ifAllowed codec d s x handled) = f sv := by
  unfold Server.ifAllowed
  split
  · rename_i sv' hallow
    exact (h.sendError sv' s _ _).trans (h.allowMessage hallow)
  · rename_i sv' hallow
    exact (hhandled sv').trans (h.allowMessage hallow)

/-- An envelope that does not come to the voice rooms. -/
theorem handleEnvelope (h : Apart f) (hregister : ∀ sv userId, f (sv.register s userId) = f sv)
    {env : Envelope} (hjoin : env.type ≠ .voiceRoomJoin) (hleave : env.type ≠ .voiceRoomLeave) :
    f (sv.handleEnvelope codec crypto d s x env) = f sv := by
  unfold Server.handleEnvelope
  cases htype : env.type with
  | voiceRoomJoin => exact absurd htype hjoin
  | voiceRoomLeave => exact absurd htype hleave
  | hello =>
    dsimp only
    split_ifs
    · split
      · exact h.sendError_disconnect sv s _ _
      · exact h.handleHello _
    · rfl
  | authResponse =>
    dsimp only
    split_ifs
    · split
      · exact h.sendError_disconnect sv s _ _
      · exact h.handleAuthResponse hregister _
    · rfl
  | ping =>
    dsimp only
    split_ifs
    · exact (h.send _ s _).trans (h.modify sv s _)
    · rfl
  | pong => exact h.modify sv s _
  | chatEnvelope =>
    exact h.ifAuthenticated _ (h.ifAllowed fun _ =>
      h.handlePayload _ _ _ _ fun _ => h.handleChat _ _)
  | voiceSignal =>
    exact h.ifAuthenticated _ (h.ifAllowed fun _ =>
      h.handlePayload _ _ _ _ fun _ => h.handleVoiceSignal _ _)
  | keyUpload =>
    exact h.ifAuthenticated _ (h.handlePayload _ _ _ _ fun _ => h.handleKeyUpload _)
  | keyRequest =>
    exact h.ifAuthenticated _ (h.handlePayload _ _ _ _ fun _ => h.handleKeyRequest _)
  | command =>
    exact h.ifAuthenticated _ (h.handlePayload _ _ _ _ fun _ => h.handleCommand _)
  | fileUpload => exact h.ifAuthenticated _ (h.handleFileUploadPayload _)
  | fileDownload =>
    exact h.ifAuthenticated _ (h.handlePayload _ _ _ _ fun _ => h.handleFileDownload _)
  | authChallenge | authOk | authFail | keyBundle | presence | voiceRoomState | commandResponse
  | nickChange | fileChunk | fileProgress | fileComplete | fileError | motd | error | other => rfl

end Apart

end Server

end Ircord

import IrcordServer.Net.Frame

/-!
# Quiet handlers

Every envelope is handled quietly, but for those of the authentication (`quiet_handleEnvelope`).
-/

open Container

namespace Ircord

namespace Server

section Handlers

variable {clears : Prop} {codec : Codec} {crypto : Crypto} {d : Draws} {sv : Server}
  {s : SessionId} {x : Session}

/-! ## Messages -/

theorem quiet_handlePing (env : Envelope) : Quiet clears (some s) sv (sv.handlePing d s x env) :=
  (quiet_modify writable_self (fun x => { x with nextSeq := x.nextSeq + 1 }) fun _ => rfl).trans
    (quiet_send writable_self _)

theorem quiet_handleChat (chat : ChatEnvelope) (raw : Envelope) :
    Quiet clears (some s) sv (sv.handleChat codec d s x chat raw) := by
  unfold handleChat
  split_ifs
  · exact quiet_sendError_disconnect _ _
  · exact quiet_sendError _ _
  · exact quiet_broadcast _ _
  · split
    · rename_i recipient hfound
      exact quiet_send (Or.inr (registered_of_findSession sv recipient hfound)) raw
    · have husers := OfflineStore.users_save sv.db chat.recipientId
        (codec.envelope.serialize raw) d.nowUnix
      split
      · rename_i db hsave
        rw [hsave] at husers
        exact quiet_setDb_of_users_eq husers
      · rename_i db hsave
        rw [hsave] at husers
        exact (quiet_setDb_of_users_eq husers).trans (quiet_sendError _ _)

theorem quiet_handleVoiceSignal (vs : VoiceSignal) (raw : Envelope) :
    Quiet clears (some s) sv (sv.handleVoiceSignal codec d s x vs raw) := by
  unfold handleVoiceSignal
  split
  · exact quiet_sendError_disconnect _ _
  · split
    · exact quiet_sendError _ _
    · split
      · rename_i recipient hfound
        exact quiet_send (Or.inr (registered_of_findSession sv recipient hfound)) raw
      · split
        · exact quiet_sendError _ _
        · exact .refl _ _

/-- The actions of the voice rooms, after the rooms are put back. -/
theorem quiet_voice {t : Option SessionId} (voice : VoiceRoomManager) {actions : List Action}
    (h : Action.About (Found sv.findSession) actions) :
    Quiet clears t sv ({ sv with voice := voice }.run actions) :=
  (quiet_setVoice voice).trans (quiet_run (about_writable h))

theorem quiet_handleVoiceRoomJoin (join : VoiceRoomJoin) :
    Quiet clears (some s) sv (sv.handleVoiceRoomJoin codec d s x join) := by
  have habout := VoiceRoomManager.about_of_roomMessage _
    (VoiceRoomManager.roomMessage_join codec sv.findSession sv.voice join.channelId x.userId)
  unfold handleVoiceRoomJoin
  dsimp only
  split_ifs
  · exact (quiet_voice _ habout).trans (quiet_sendEnvelope _ _)
  · exact quiet_voice _ habout

theorem quiet_handleVoiceRoomLeave (leave : VoiceRoomLeave) :
    Quiet clears (some s) sv (sv.handleVoiceRoomLeave codec x leave) :=
  quiet_voice _ (VoiceRoomManager.about_of_roomMessage _
    (VoiceRoomManager.roomMessage_leave codec sv.findSession sv.voice _ _))

theorem quiet_leaveVoiceRooms {t : Option SessionId} (userId : Str) :
    Quiet clears t sv (sv.leaveVoiceRooms codec userId) :=
  quiet_voice _ (VoiceRoomManager.about_of_roomMessage _
    (VoiceRoomManager.roomMessage_onDisconnect codec sv.findSession sv.voice userId))

theorem users_storeOpks (userId : Str) (opks : List Bytes) (db : Database) :
    (storeOpks userId db opks).users = db.users := by
  induction opks generalizing db with
  | nil => rfl
  | cons opk opks ih =>
    unfold storeOpks
    split
    · rfl
    · rename_i db' hstore
      exact (ih db').trans (Database.users_insertOneTimePrekey db hstore)

theorem quiet_handleKeyUpload (ku : KeyUpload) :
    Quiet clears (some s) sv (sv.handleKeyUpload d x ku) := by
  unfold handleKeyUpload
  dsimp only
  split
  · exact .refl _ _
  · rename_i db hsigned
    have husers : db.users = sv.db.users := by
      split_ifs at hsigned
      · cases hsigned
        rfl
      · exact Database.users_replaceSignedPrekey sv.db hsigned
    exact quiet_setDb_of_users_eq ((users_storeOpks _ _ _).trans husers)

theorem quiet_handleKeyRequest (kr : KeyRequest) :
    Quiet clears (some s) sv (sv.handleKeyRequest codec d s kr) := by
  unfold handleKeyRequest
  split
  · exact quiet_sendError _ _
  · exact (quiet_setDb_of_users_eq (UserStore.users_consumeOpk kr.userId)).trans
      (quiet_sendEnvelope _ _)

theorem quiet_handleCommand (cmd : IrcCommand)
    (hclears : x.userId = CommandHandler.adminUser → clears) :
    Quiet clears (some s) sv (sv.handleCommand codec crypto d s x cmd) := by
  obtain ⟨habout, hkeys⟩ :=
    @CommandHandler.contained_handleCommand (sv.services codec crypto d) sv.commands sv.db
      ⟨s, x.userId⟩ cmd
  have habout' : Action.About (sv.Writable (some s)) _ := habout.mono fun t ht =>
    ht.elim (fun e => Or.inl (congrArg some e.symm)) fun ⟨_, hfound⟩ =>
      Or.inr (registered_of_findSession sv t hfound)
  have hset : Quiet clears (some s) sv { sv with
      commands := (sv.commands.handleCommand (sv.services codec crypto d) sv.db cmd
        ⟨s, x.userId⟩).handler
      db := (sv.commands.handleCommand (sv.services codec crypto d) sv.db cmd ⟨s, x.userId⟩).db } :=
    ⟨fun _ => rfl, fun _ _ _ => rfl, rfl, rfl, rfl, rfl, hkeys.mono hclears⟩
  exact (hset.trans (quiet_run habout')).trans (quiet_send writable_self _)

/-! ## File transfer -/

theorem quiet_sendFileError (fileId : Str) (code : UInt32) (message : Str) :
    Quiet clears (some s) sv (sv.sendFileError codec d s fileId code message) :=
  quiet_sendEnvelope _ _

theorem quiet_sendFileProgress (fileId : Str) (bytesTransferred totalBytes : ℕ)
    (status : String) :
    Quiet clears (some s) sv
      (sv.sendFileProgress codec d s fileId bytesTransferred totalBytes status) :=
  quiet_sendEnvelope _ _

theorem quiet_handleFileRequest (req : FileUploadRequest) :
    Quiet clears (some s) sv (sv.handleFileRequest codec d s x req) := by
  unfold handleFileRequest
  split
  · exact quiet_sendFileError _ _ _
  · split
    · exact quiet_sendFileError _ _ _
    · dsimp only
      split
      · rename_i db hcreate
        have husers : db.users = sv.db.users := by
          rw [← FileStore.users_createFile sv.db _ d.nowUnix, hcreate]
        exact (quiet_setDb_of_users_eq husers).trans (quiet_sendFileError _ _ _)
      · rename_i db hcreate
        have husers : db.users = sv.db.users := by
          rw [← FileStore.users_createFile sv.db _ d.nowUnix, hcreate]
        refine Quiet.trans ?_ (quiet_sendFileProgress _ _ _ _)
        refine (quiet_setDb_of_users_eq husers).trans ?_
        exact quiet_modify writable_self _ fun _ => rfl

theorem quiet_eraseUpload (fileId : Str) :
    Quiet clears (some s) sv (sv.modify s fun x =>
      { x with activeUploads := x.activeUploads.erase fileId }) :=
  quiet_modify writable_self _ fun _ => rfl

theorem quiet_finishUpload (fileId : Str) (upload : FileUploadState) :
    Quiet clears (some s) sv (sv.finishUpload codec d s fileId upload) := by
  unfold finishUpload
  dsimp only
  split_ifs
  · exact ((quiet_setDb_of_users_eq (FileStore.users_deleteFile sv.db fileId)).trans
      (quiet_sendFileError _ _ _)).trans (quiet_eraseUpload fileId)
  · exact ((quiet_setDb_of_users_eq (FileStore.users_markComplete sv.db fileId .null)).trans
      (quiet_sendEnvelope _ _)).trans (quiet_eraseUpload fileId)

theorem quiet_allowMessage_of {allowed : Bool} {sv' : Server}
    (h : sv.allowMessage d s x = (allowed, sv')) : Quiet clears (some s) sv sv' := by
  have hquiet := @quiet_allowMessage clears d sv s x
  rwa [h] at hquiet

theorem quiet_handleFileUpload (chunk : FileUploadChunk) :
    Quiet clears (some s) sv (sv.handleFileUpload codec d s x chunk) := by
  unfold handleFileUpload
  split
  · rename_i sv' hallow
    exact (quiet_allowMessage_of hallow).trans (quiet_sendFileError _ _ _)
  · rename_i sv' hallow
    refine (quiet_allowMessage_of hallow).trans ?_
    split
    · exact quiet_sendFileError _ _ _
    · split
      · exact quiet_sendFileError _ _ _
      · split
        · rename_i db hstore
          have husers : db.users = sv'.db.users := by
            rw [← FileStore.users_storeChunk sv'.db _ _ _, hstore]
          exact (quiet_setDb_of_users_eq husers).trans (quiet_sendFileError _ _ _)
        · rename_i db hstore
          have husers : db.users = sv'.db.users := by
            rw [← FileStore.users_storeChunk sv'.db _ _ _, hstore]
          dsimp only
          refine (quiet_setDb_of_users_eq husers).trans ?_
          split
          · refine Quiet.trans ?_ (quiet_finishUpload _ _)
            refine Quiet.trans ?_ (quiet_sendFileProgress _ _ _ _)
            exact quiet_modify writable_self _ fun _ => rfl
          · refine Quiet.trans ?_ (quiet_sendFileProgress _ _ _ _)
            exact quiet_modify writable_self _ fun _ => rfl

theorem quiet_sendChunks (fileId : Str) (fileSize totalChunks n i : ℕ) (sv : Server) :
    Quiet clears (some s) sv (sendChunks codec d s fileId fileSize totalChunks n i sv) := by
  induction n generalizing i sv with
  | zero => exact .refl _ _
  | succ n ih =>
    unfold sendChunks
    split
    · exact quiet_sendFileError _ _ _
    · exact ((quiet_sendEnvelope _ _).trans (quiet_sendFileProgress _ _ _ _)).trans (ih _ _)

theorem quiet_handleFileDownload (req : FileDownloadRequest) :
    Quiet clears (some s) sv (sv.handleFileDownload codec d s req) := by
  unfold handleFileDownload
  split
  · exact quiet_sendFileError _ _ _
  · exact quiet_sendChunks _ _ _ _ _ _

theorem quiet_handleFileUploadPayload (env : Envelope) :
    Quiet clears (some s) sv (sv.handleFileUploadPayload codec d s x env) := by
  unfold handleFileUploadPayload
  split_ifs
  · exact quiet_sendError _ _
  · split
    · exact quiet_handleFileUpload _
    · split
      · exact quiet_handleFileRequest _
      · exact quiet_sendError _ _

/-! ## Dispatch -/

theorem quiet_handlePayload {α : Type} (env : Envelope) (wire : Wire α) (code : UInt32)
    (message : String) {handle : α → Server} (h : ∀ m, Quiet clears (some s) sv (handle m)) :
    Quiet clears (some s) sv (sv.handlePayload codec d s env wire code message handle) := by
  unfold handlePayload
  split
  · exact quiet_sendError _ _
  · exact h _

theorem quiet_ifAuthenticated (code : UInt32) {handled : Server}
    (h : x.state = .established → Quiet clears (some s) sv handled) :
    Quiet clears (some s) sv (sv.ifAuthenticated codec d s x code handled) := by
  unfold ifAuthenticated
  split_ifs with hstate
  · exact h hstate
  · exact quiet_sendError _ _

theorem quiet_ifAllowed {handled : Server → Server}
    (h : ∀ sv', Quiet clears (some s) sv' (handled sv')) :
    Quiet clears (some s) sv (sv.ifAllowed codec d s x handled) := by
  unfold ifAllowed
  split
  · rename_i sv' hallow
    exact (quiet_allowMessage_of hallow).trans (quiet_sendError _ _)
  · rename_i sv' hallow
    exact (quiet_allowMessage_of hallow).trans (h sv')

/-- The envelopes that are not part of the authentication. -/
theorem quiet_handleEnvelope (env : Envelope) (hhello : env.type ≠ .hello)
    (hauth : env.type ≠ .authResponse)
    (hclears : x.state = .established → x.userId = CommandHandler.adminUser → clears) :
    Quiet clears (some s) sv (sv.handleEnvelope codec crypto d s x env) := by
  unfold handleEnvelope
  cases htype : env.type with
  | hello => exact absurd htype hhello
  | authResponse => exact absurd htype hauth
  | ping =>
    dsimp only
    split_ifs
    · exact quiet_handlePing env
    · exact .refl _ _
  | pong => exact quiet_modify writable_self _ fun _ => rfl
  | chatEnvelope =>
    exact quiet_ifAuthenticated _ fun _ => quiet_ifAllowed fun _ =>
      quiet_handlePayload _ _ _ _ fun _ => quiet_handleChat _ _
  | voiceSignal =>
    exact quiet_ifAuthenticated _ fun _ => quiet_ifAllowed fun _ =>
      quiet_handlePayload _ _ _ _ fun _ => quiet_handleVoiceSignal _ _
  | voiceRoomJoin =>
    dsimp only
    split_ifs
    · exact quiet_handlePayload _ _ _ _ fun _ => quiet_handleVoiceRoomJoin _
    · exact .refl _ _
  | voiceRoomLeave =>
    dsimp only
    split_ifs
    · exact quiet_handlePayload _ _ _ _ fun _ => quiet_handleVoiceRoomLeave _
    · exact .refl _ _
  | keyUpload =>
    exact quiet_ifAuthenticated _ fun _ =>
      quiet_handlePayload _ _ _ _ fun _ => quiet_handleKeyUpload _
  | keyRequest =>
    exact quiet_ifAuthenticated _ fun _ =>
      quiet_handlePayload _ _ _ _ fun _ => quiet_handleKeyRequest _
  | command =>
    exact quiet_ifAuthenticated _ fun hstate =>
      quiet_handlePayload _ _ _ _ fun _ => quiet_handleCommand _ (hclears hstate)
  | fileUpload => exact quiet_ifAuthenticated _ fun _ => quiet_handleFileUploadPayload env
  | fileDownload =>
    exact quiet_ifAuthenticated _ fun _ =>
      quiet_handlePayload _ _ _ _ fun _ => quiet_handleFileDownload _
  | authChallenge | authOk | authFail | keyBundle | presence | voiceRoomState | commandResponse
  | nickChange | fileChunk | fileProgress | fileComplete | fileError | motd | error | other =>
    exact .refl _ _

end Handlers

end Server

end Ircord

import IrcordServer.Net.Effect
import IrcordServer.Net.FileMessages

/-!
# Which messages change users

A step that is not about an `AUTH_RESPONSE` or a command leaves the users table as it is, and one
that is not about a `KEY_UPLOAD` either leaves the signed pre-keys.  Both are parts of the tables
that the other statements do not write (`AccountPart`).
-/

open Container

namespace Ircord

/-- A part of the tables that statements about offline messages, files and used one-time pre-keys
leave alone. -/
structure AccountPart {α : Type} (part : Database → α) : Prop where
  save : ∀ db recipientId payload nowUnix,
    part (OfflineStore.save db recipientId payload nowUnix).2 = part db
  fetchAndDelete : ∀ db userId nowUnix,
    part (OfflineStore.fetchAndDelete db userId nowUnix).2 = part db
  cleanupMessages : ∀ db nowUnix, part (OfflineStore.cleanupExpired db nowUnix) = part db
  consumeOpk : ∀ db userId, part (UserStore.consumeOpk db userId).2 = part db
  createFile : ∀ db metadata nowUnix, part (FileStore.createFile db metadata nowUnix).2 = part db
  storeChunk : ∀ db fileId index data, part (FileStore.storeChunk db fileId index data).2 = part db
  markComplete : ∀ db fileId checksum, part (FileStore.markComplete db fileId checksum) = part db
  deleteFile : ∀ db fileId, part (FileStore.deleteFile db fileId) = part db
  cleanupFiles : ∀ db nowUnix, part (FileStore.cleanupExpired db nowUnix) = part db

theorem accountPart_users : AccountPart (·.users) where
  save := OfflineStore.users_save
  fetchAndDelete := OfflineStore.users_fetchAndDelete
  cleanupMessages _ _ := rfl
  consumeOpk _ userId := UserStore.users_consumeOpk userId
  createFile := FileStore.users_createFile
  storeChunk := FileStore.users_storeChunk
  markComplete := FileStore.users_markComplete
  deleteFile := FileStore.users_deleteFile
  cleanupFiles _ _ := rfl

theorem accountPart_signedPrekeys : AccountPart (·.signedPrekeys) where
  save db recipientId payload nowUnix := by
    have holdest : (OfflineStore.deleteOldest db).signedPrekeys = db.signedPrekeys := by
      unfold OfflineStore.deleteOldest
      split <;> rfl
    obtain ⟨db₁, hdb₁, hsave⟩ := @OfflineStore.save_cases db recipientId payload nowUnix
    have hsame : db₁.signedPrekeys = db.signedPrekeys := by
      rcases hdb₁ with rfl | rfl
      · rfl
      · exact holdest
    rcases hsave with hsave | hsave <;> rw [hsave] <;> exact hsame
  fetchAndDelete _ _ _ := rfl
  cleanupMessages _ _ := rfl
  consumeOpk db userId := by
    unfold UserStore.consumeOpk
    split <;> rfl
  createFile db metadata nowUnix := by
    unfold FileStore.createFile Database.insertFile
    dsimp only
    split_ifs <;> rfl
  storeChunk db fileId index data := by
    unfold FileStore.storeChunk Database.replaceChunk
    split
    · rename_i db' h
      split at h
      · cases h
      · split_ifs at h
        cases h
        rfl
    · rfl
  markComplete db fileId checksum := by
    unfold FileStore.markComplete Database.updateFile
    split <;> rfl
  deleteFile _ _ := rfl
  cleanupFiles _ _ := rfl

namespace Server

variable {codec : Codec} {crypto : Crypto} {d : Draws} {sv : Server} {s : SessionId} {x : Session}

theorem db_run (sv : Server) (actions : List Action) : (sv.run actions).db = sv.db := by
  induction actions generalizing sv with
  | nil => rfl
  | cons a actions ih =>
    cases a with
    | send t env => exact ih (sv.send t env)
    | disconnect t reason => exact ih (sv.disconnect t)

/-! ## The messages but for authentication, commands and key uploads -/

section Part

variable {α : Type} {part : Database → α}

theorem speaks_part (part : Database → α) : Speaks fun sv sv' => part sv'.db = part sv.db where
  refl _ := rfl
  trans h h' := h'.trans h
  modify _ _ _ _ := rfl
  log _ _ _ _ := rfl
  rest _ _ _ hdb _ := by rw [hdb]

theorem part_handleChat (hpart : AccountPart part) (chat : ChatEnvelope) (raw : Envelope) :
    part (sv.handleChat codec d s x chat raw).db = part sv.db := by
  unfold handleChat
  split_ifs
  · exact (speaks_part part).sendError_disconnect sv s _ _
  · exact (speaks_part part).sendError sv s _ _
  · rw [db_broadcast]
  · split
    · rfl
    · have hsame := hpart.save sv.db chat.recipientId (codec.envelope.serialize raw) d.nowUnix
      split
      · rename_i db hsave
        rw [hsave] at hsame
        exact hsame
      · rename_i db hsave
        rw [hsave] at hsame
        exact ((speaks_part part).sendError _ s _ _).trans hsame

theorem part_handleVoiceSignal (part : Database → α) (vs : VoiceSignal) (raw : Envelope) :
    part (sv.handleVoiceSignal codec d s x vs raw).db = part sv.db := by
  unfold handleVoiceSignal
  split_ifs
  · exact (speaks_part part).sendError_disconnect sv s _ _
  · exact (speaks_part part).sendError sv s _ _
  · split
    · rfl
    · exact (speaks_part part).sendError sv s _ _
  · split <;> rfl

theorem part_handleKeyRequest (hpart : AccountPart part) (kr : KeyRequest) :
    part (sv.handleKeyRequest codec d s kr).db = part sv.db := by
  unfold handleKeyRequest
  split
  · exact (speaks_part part).sendError sv s _ _
  · exact ((speaks_part part).sendEnvelope _ s (by decide) _).trans
      (hpart.consumeOpk sv.db kr.userId)

theorem part_sendFileError (part : Database → α) (sv : Server) (fileId : Str) (code : UInt32)
    (message : Str) : part (sv.sendFileError codec d s fileId code message).db = part sv.db :=
  (speaks_part part).sendEnvelope sv s (by decide) _

theorem part_sendFileProgress (part : Database → α) (sv : Server) (fileId : Str)
    (bytesTransferred totalBytes : ℕ) (status : String) :
    part (sv.sendFileProgress codec d s fileId bytesTransferred totalBytes status).db =
      part sv.db :=
  (speaks_part part).sendEnvelope sv s (by decide) _

theorem part_handleFileRequest (hpart : AccountPart part) (req : FileUploadRequest) :
    part (sv.handleFileRequest codec d s x req).db = part sv.db := by
  unfold handleFileRequest
  split
  · exact part_sendFileError part _ _ _ _
  · split
    · exact part_sendFileError part _ _ _ _
    · dsimp only
      split
      · rename_i db hcreate
        refine (part_sendFileError part _ _ _ _).trans ?_
        rw [← hpart.createFile sv.db _ d.nowUnix, hcreate]
      · rename_i db hcreate
        refine (part_sendFileProgress part _ _ _ _ _).trans ?_
        show part db = part sv.db
        rw [← hpart.createFile sv.db _ d.nowUnix, hcreate]

theorem part_finishUpload (hpart : AccountPart part) (sv : Server) (fileId : Str)
    (upload : FileUploadState) :
    part (sv.finishUpload codec d s fileId upload).db = part sv.db := by
  unfold finishUpload
  dsimp only
  split_ifs
  · exact (part_sendFileError part _ _ _ _).trans (hpart.deleteFile sv.db fileId)
  · exact ((speaks_part part).sendEnvelope _ s (by decide) _).trans
      (hpart.markComplete sv.db fileId .null)

theorem part_handleFileUpload (hpart : AccountPart part) (chunk : FileUploadChunk) :
    part (sv.handleFileUpload codec d s x chunk).db = part sv.db := by
  unfold handleFileUpload
  split
  · rename_i sv' hallow
    exact (part_sendFileError part _ _ _ _).trans ((speaks_part part).allowMessage hallow)
  · rename_i sv' hallow
    rw [← (speaks_part part).allowMessage hallow]
    split
    · exact part_sendFileError part _ _ _ _
    · split
      · exact part_sendFileError part _ _ _ _
      · have hstore (fileId : Str) (index : UInt32) (data : Bytes) {stored : Bool} {db : Database}
            (h : FileStore.storeChunk sv'.db fileId index data = (stored, db)) :
            part db = part sv'.db := by
          rw [← hpart.storeChunk sv'.db fileId index data, h]
        split
        · rename_i db hstored
          exact (part_sendFileError part _ _ _ _).trans (hstore _ _ _ hstored)
        · rename_i db hstored
          dsimp only
          split
          · exact (part_finishUpload hpart _ _ _).trans
              ((part_sendFileProgress part _ _ _ _ _).trans (hstore _ _ _ hstored))
          · exact (part_sendFileProgress part _ _ _ _ _).trans (hstore _ _ _ hstored)

theorem part_handleFileUploadPayload (hpart : AccountPart part) (env : Envelope) :
    part (sv.handleFileUploadPayload codec d s x env).db = part sv.db := by
  unfold handleFileUploadPayload
  split_ifs
  · exact (speaks_part part).sendError sv s _ _
  · split
    · exact part_handleFileUpload hpart _
    · split
      · exact part_handleFileRequest hpart _
      · exact (speaks_part part).sendError sv s _ _

theorem part_sendChunks (part : Database → α) (fileId : Str) (fileSize totalChunks n i : ℕ)
    (sv : Server) :
    part (sendChunks codec d s fileId fileSize totalChunks n i sv).db = part sv.db := by
  induction n generalizing i sv with
  | zero => rfl
  | succ n ih =>
    unfold sendChunks
    split
    · exact part_sendFileError part _ _ _ _
    · rename_i data _
      refine (ih _ _).trans ((part_sendFileProgress part _ _ _ _ _).trans ?_)
      rw [show (sv.sendEnvelope d s .fileChunk _).db = sv.db from db_sendEnvelope _ _]

theorem part_handleFileDownload (part : Database → α) (req : FileDownloadRequest) :
    part (sv.handleFileDownload codec d s req).db = part sv.db := by
  unfold handleFileDownload
  split
  · exact part_sendFileError part _ _ _ _
  · exact part_sendChunks part _ _ _ _ _ _

theorem part_establish (hpart : AccountPart part) (sv : Server) (userId : Str) :
    part (establish codec d sv s userId).db = part sv.db := by
  have hreplay (sv : Server) (userId : Str) :
      part (sv.deliverOffline codec d s userId).db = part sv.db := by
    rw [db_deliverOffline]
    exact hpart.fetchAndDelete _ _ _
  exact (speaks_part part).establish (fun sv _ => hreplay sv) userId

/-- The envelopes that are neither part of the authentication, nor a command, nor a key upload. -/
theorem part_handleEnvelope (hpart : AccountPart part) {env : Envelope}
    (hauth : env.type ≠ .authResponse) (hcommand : env.type ≠ .command)
    (hupload : env.type ≠ .keyUpload) :
    part (sv.handleEnvelope codec crypto d s x env).db = part sv.db := by
  by_cases hlisted : env.type ∈ Speaks.relayOrTableTypes
  · unfold handleEnvelope
    simp only [Speaks.relayOrTableTypes, List.mem_cons, List.not_mem_nil, or_false, hauth,
      hcommand, hupload, false_or] at hlisted
    rcases hlisted with htype | htype | htype | htype | htype
    · rw [htype]
      exact (speaks_part part).ifAuthenticated _ fun _ => (speaks_part part).ifAllowed fun _ _ =>
        (speaks_part part).handlePayload _ _ _ _ fun _ => part_handleChat hpart _ _
    · rw [htype]
      exact (speaks_part part).ifAuthenticated _ fun _ => (speaks_part part).ifAllowed fun _ _ =>
        (speaks_part part).handlePayload _ _ _ _ fun _ => part_handleVoiceSignal part _ _
    · rw [htype]
      exact (speaks_part part).ifAuthenticated _ fun _ =>
        (speaks_part part).handlePayload _ _ _ _ fun _ => part_handleKeyRequest hpart _
    · rw [htype]
      exact (speaks_part part).ifAuthenticated _ fun _ => part_handleFileUploadPayload hpart env
    · rw [htype]
      exact (speaks_part part).ifAuthenticated _ fun _ =>
        (speaks_part part).handlePayload _ _ _ _ fun _ => part_handleFileDownload part _
  · exact (speaks_part part).handleEnvelope hlisted

/-! ## Any event -/

/-- The events that deliver no frame. -/
theorem part_perform (hpart : AccountPart part) {event : Event}
    (hframe : ∀ t data, event ≠ .payloadRead t (some data)) :
    part (sv.perform codec crypto d event).db = part sv.db := by
  cases event with
  | accept ip =>
    show part (sv.onAccept d ip).db = part sv.db
    unfold onAccept
    dsimp only
    split_ifs <;> rfl
  | cleanup => exact (hpart.cleanupFiles _ _).trans (hpart.cleanupMessages _ _)
  | _ => exact (speaks_part part).perform hframe (fun _ h => by cases h) (fun h => by cases h)

/-- A step that delivers no envelope. -/
theorem part_step_of_not_delivered (hpart : AccountPart part) {i : Input}
    (h : ∀ s, delivered codec s sv i = none) :
    part (sv.step codec crypto i).db = part sv.db := by
  unfold step
  split_ifs with henabled
  · by_cases hframe : ∀ t data, i.event ≠ .payloadRead t (some data)
    · exact part_perform hpart hframe
    · push Not at hframe
      obtain ⟨t, data, hevent⟩ := hframe
      have hparse : codec.envelope.parse data = none := by
        have hnone := h t
        unfold delivered at hnone
        rw [hevent] at hnone henabled
        dsimp only at hnone
        rwa [if_pos ⟨rfl, henabled⟩] at hnone
      rw [hevent]
      unfold perform
      dsimp only
      split
      · rfl
      · unfold onPayload onFrameReceived
        dsimp only
        rw [hparse]
        exact (speaks_part part).sendError _ t _ _
  · rfl

end Part

/-! ## The users table -/

theorem speaks_users : Speaks fun sv sv' => sv'.db.users = sv.db.users := speaks_part (·.users)

theorem users_handleKeyUpload (ku : KeyUpload) :
    (sv.handleKeyUpload d x ku).db.users = sv.db.users := by
  unfold handleKeyUpload
  dsimp only
  split
  · rfl
  · rename_i db hsigned
    have husers : db.users = sv.db.users := by
      split_ifs at hsigned
      · cases hsigned
        rfl
      · exact Database.users_replaceSignedPrekey sv.db hsigned
    exact (users_storeOpks _ _ _).trans husers

theorem users_establish (sv : Server) (userId : Str) :
    (establish codec d sv s userId).db.users = sv.db.users :=
  part_establish accountPart_users sv userId

/-- The envelopes that are neither part of the authentication nor a command. -/
theorem users_handleEnvelope {env : Envelope} (hauth : env.type ≠ .authResponse)
    (hcommand : env.type ≠ .command) :
    (sv.handleEnvelope codec crypto d s x env).db.users = sv.db.users := by
  by_cases hupload : env.type = .keyUpload
  · unfold handleEnvelope
    rw [hupload]
    exact speaks_users.ifAuthenticated _ fun _ =>
      speaks_users.handlePayload _ _ _ _ fun _ => users_handleKeyUpload _
  · exact part_handleEnvelope accountPart_users hauth hcommand hupload

/-- A step that delivers no envelope. -/
theorem users_step_of_not_delivered {i : Input} (h : ∀ s, delivered codec s sv i = none) :
    (sv.step codec crypto i).db.users = sv.db.users :=
  part_step_of_not_delivered accountPart_users h

end Server

end Ircord

import IrcordServer.Db.FileTables
import IrcordServer.Net.Traffic

/-!
# File messages

Which file message a step hands to its handler, and what the handlers do to the tables of files and
chunks.  No other step touches these tables, but for the cleanup timer.
-/

open Container

namespace Ircord

inductive FileMessage
  | request (req : FileUploadRequest)
  | chunk (chunk : FileUploadChunk)
  | download (req : FileDownloadRequest)

/-- The file message that `handle_envelope` gets out of an envelope, for an established session. -/
def Envelope.fileMessage (codec : Codec) (env : Envelope) : Option FileMessage :=
  match env.type with
  | .fileUpload =>
    if env.payload.isEmpty then none
    else
      match (codec.fileUploadChunk.parse env.payload).filter fun chunk => !chunk.data.isEmpty with
      | some chunk => some (.chunk chunk)
      | none => (codec.fileUploadRequest.parse env.payload).map .request
  | .fileDownload => (env.parsePayload codec.fileDownloadRequest).map .download
  | _ => none

namespace Server

variable {codec : Codec} {crypto : Crypto} {d : Draws} {sv sv' : Server} {s : SessionId}
  {x : Session}

/-- The handler of the message. -/
def handleFileMessage (codec : Codec) (d : Draws) (sv : Server) (s : SessionId) (x : Session) :
    FileMessage → Server
  | .request req => sv.handleFileRequest codec d s x req
  | .chunk chunk => sv.handleFileUpload codec d s x chunk
  | .download req => sv.handleFileDownload codec d s req

/-- The session and the file message whose handler runs with this step. -/
def fileMessage (codec : Codec) (sv : Server) (i : Input) :
    Option (SessionId × Session × FileMessage) :=
  match i.event with
  | .payloadRead s (some data) =>
    if sv.enabled i.event then
      sv.sessions[s]?.bind fun x => (codec.envelope.parse data).bind fun env =>
        if x.state = .established then (env.fileMessage codec).map fun m => (s, x, m) else none
    else none
  | _ => none

/-! ## Steps that leave the files alone -/

/-- A relation between the server before and after that allows everything but to change the files,
their chunks and the uploads. -/
structure Ignores (R : Server → Server → Prop) : Prop extends Speaks R where
  relay : ∀ (sv : Server) (t : SessionId) (env : Envelope),
    R sv { sv with written := sv.written ++ [(t, env)] }
  setTables : ∀ (sv : Server) (db : Database), db.files = sv.db.files →
    db.fileChunks = sv.db.fileChunks → R sv { sv with db := db }
  accept : ∀ sv : Server, R sv { sv with sessions := sv.sessions ++ [.new] }

theorem db_sendEnvelope (type : MessageType) (payload : Bytes) :
    (sv.sendEnvelope d s type payload).db = sv.db := by
  unfold sendEnvelope
  split <;> rfl

namespace Ignores

variable {R : Server → Server → Prop}

theorem tolerates (hR : Ignores R) (codec : Codec) : Tolerates codec R :=
  { hR.toSpeaks with setDb := fun sv db _ => hR.setTables sv db }

theorem relays (hR : Ignores R) (sv : Server) (t : SessionId) (env : Envelope) :
    R sv (sv.send t env) :=
  hR.trans (hR.modify sv t (fun x => { x with writes := x.writes + 1 }) fun _ => rfl)
    (hR.relay _ t env)

theorem answers (hR : Ignores R) (sv : Server) (s : SessionId) (type : MessageType)
    (payload : Bytes) : R sv (sv.sendEnvelope d s type payload) := by
  unfold Server.sendEnvelope
  split
  · exact hR.refl sv
  · exact hR.trans (hR.modify sv s (fun x => { x with nextSeq := x.nextSeq + 1 }) fun _ => rfl)
      (hR.relays _ s _)

theorem deliverOffline (hR : Ignores R) (userId : Str) :
    R sv (sv.deliverOffline codec d s userId) := by
  unfold Server.deliverOffline
  exact hR.trans (hR.setTables sv (OfflineStore.fetchAndDelete sv.db userId d.nowUnix).2 rfl rfl)
    (hR.foldl (f := fun sv env => sv.send s env) (fun sv env => hR.relays sv s env) _ _)

theorem handleChat (hR : Ignores R) (chat : ChatEnvelope) (raw : Envelope) :
    R sv (sv.handleChat codec d s x chat raw) := by
  unfold Server.handleChat
  split_ifs
  · exact hR.sendError_disconnect sv s _ _
  · exact hR.sendError sv s _ _
  · exact hR.foldl (f := fun sv t => sv.send t raw) (fun sv t => hR.relays sv t raw) _ _
  · split
    · exact hR.relays sv _ raw
    · have hsave := OfflineStore.files_save sv.db chat.recipientId (codec.envelope.serialize raw)
        d.nowUnix
      split
      · rename_i db hsaved
        rw [hsaved] at hsave
        exact hR.setTables sv db hsave.1 hsave.2
      · rename_i db hsaved
        rw [hsaved] at hsave
        exact hR.trans (hR.setTables sv db hsave.1 hsave.2) (hR.sendError _ s _ _)

theorem handleVoiceSignal (hR : Ignores R) (vs : VoiceSignal) (raw : Envelope) :
    R sv (sv.handleVoiceSignal codec d s x vs raw) := by
  unfold Server.handleVoiceSignal
  split_ifs
  · exact hR.sendError_disconnect sv s _ _
  · exact hR.sendError sv s _ _
  · split
    · exact hR.relays sv _ raw
    · exact hR.sendError sv s _ _
  · split
    · exact hR.relays sv _ raw
    · exact hR.refl sv

/-- An envelope is a file message of an established session, or its handler leaves the files
alone. -/
theorem handleEnvelope (hR : Ignores R) (env : Envelope) :
    (∃ m, x.state = .established ∧ env.fileMessage codec = some m ∧
        sv.handleEnvelope codec crypto d s x env = sv.handleFileMessage codec d s x m) ∨
      ((x.state = .established → env.fileMessage codec = none) ∧
        R sv (sv.handleEnvelope codec crypto d s x env)) := by
  have hT := hR.tolerates codec
  by_cases hlisted : env.type ∈ Tolerates.relayOrFileTypes
  · simp only [Tolerates.relayOrFileTypes, List.mem_cons, List.not_mem_nil, or_false] at hlisted
    rcases hlisted with htype | htype | htype | htype | htype
    · right
      unfold Server.handleEnvelope Envelope.fileMessage
      rw [htype]
      refine ⟨fun _ => rfl, ?_⟩
      dsimp only
      split_ifs
      · split
        · exact hR.sendError_disconnect sv s _ _
        · exact hT.handleAuthResponse (fun _ _ userId => hR.deliverOffline userId) _
      · exact hR.refl sv
    · right
      unfold Server.handleEnvelope Envelope.fileMessage
      rw [htype]
      exact ⟨fun _ => rfl, hT.ifAuthenticated _ fun _ => hT.ifAllowed fun _ _ =>
        hT.handlePayload _ _ _ _ fun _ => hR.handleChat _ _⟩
    · right
      unfold Server.handleEnvelope Envelope.fileMessage
      rw [htype]
      exact ⟨fun _ => rfl, hT.ifAuthenticated _ fun _ => hT.ifAllowed fun _ _ =>
        hT.handlePayload _ _ _ _ fun _ => hR.handleVoiceSignal _ _⟩
    · unfold Server.handleEnvelope Envelope.fileMessage ifAuthenticated handleFileUploadPayload
      rw [htype]
      dsimp only
      by_cases hstate : x.state = .established
      · rw [if_pos hstate]
        by_cases hempty : env.payload.isEmpty = true
        · rw [if_pos hempty, if_pos hempty]
          exact Or.inr ⟨fun _ => rfl, hR.sendError sv s _ _⟩
        · rw [if_neg hempty, if_neg hempty]
          cases (codec.fileUploadChunk.parse env.payload).filter fun chunk =>
              !chunk.data.isEmpty with
          | some chunk => exact Or.inl ⟨_, hstate, rfl, rfl⟩
          | none =>
            dsimp only
            cases codec.fileUploadRequest.parse env.payload with
            | some req => exact Or.inl ⟨_, hstate, rfl, rfl⟩
            | none => exact Or.inr ⟨fun _ => rfl, hR.sendError sv s _ _⟩
      · rw [if_neg hstate]
        exact Or.inr ⟨fun h => absurd h hstate, hR.sendError sv s _ _⟩
    · unfold Server.handleEnvelope Envelope.fileMessage ifAuthenticated handlePayload
      rw [htype]
      dsimp only
      by_cases hstate : x.state = .established
      · rw [if_pos hstate]
        cases env.parsePayload codec.fileDownloadRequest with
        | none => exact Or.inr ⟨fun _ => rfl, hR.sendError sv s _ _⟩
        | some req => exact Or.inl ⟨_, hstate, rfl, rfl⟩
      · rw [if_neg hstate]
        exact Or.inr ⟨fun h => absurd h hstate, hR.sendError sv s _ _⟩
  · refine Or.inr ⟨fun _ => ?_, hT.handleEnvelope hlisted⟩
    unfold Envelope.fileMessage
    split
    · rename_i htype
      exact absurd (by rw [htype]; decide) hlisted
    · rename_i htype
      exact absurd (by rw [htype]; decide) hlisted
    · rfl

/-- A frame is read: the handler of its file message runs, or the files are left alone. -/
theorem perform_frame (hR : Ignores R) {i : Input} {t : SessionId} {data : Bytes}
    (hevent : i.event = .payloadRead t (some data)) (henabled : sv.enabled i.event = true) :
    (sv.fileMessage codec i = none ∧ R sv (sv.perform codec crypto i.draws i.event)) ∨
      ∃ x m, sv.fileMessage codec i = some (t, x, m) ∧ sv.sessions[t]? = some x ∧
        x.state = .established ∧ sv.perform codec crypto i.draws i.event =
          ((sv.modify t fun x => { x with reading := none }).handleFileMessage codec i.draws t x
            m).doReadFrameHeader t := by
  have hT := hR.tolerates codec
  unfold fileMessage
  rw [hevent] at henabled ⊢
  dsimp only
  rw [if_pos henabled]
  unfold Server.perform
  dsimp only
  split
  · rename_i hx
    rw [hx]
    exact Or.inl ⟨rfl, hR.refl sv⟩
  · rename_i x hx
    rw [hx, Option.bind_some]
    have hreading (sv' : Server)
        (h : R (sv.modify t fun x => { x with reading := none }) sv') :
        R sv (sv'.doReadFrameHeader t) :=
      hR.trans (hR.modify sv t (fun x => { x with reading := none }) fun _ => rfl)
        (hR.trans h (hT.doReadFrameHeader sv' t))
    unfold onPayload onFrameReceived
    dsimp only
    cases henv : codec.envelope.parse data with
    | none => exact Or.inl ⟨rfl, hreading _ (hR.sendError _ t _ _)⟩
    | some env =>
      rw [Option.bind_some]
      rcases @handleEnvelope codec crypto i.draws
        (sv.modify t fun x => { x with reading := none }) t x R hR env with
        ⟨m, hstate, hm, e⟩ | ⟨hnone, hkept⟩
      · right
        rw [if_pos hstate, hm]
        refine ⟨x, m, rfl, rfl, hstate, ?_⟩
        dsimp only
        rw [e]
      · left
        refine ⟨?_, hreading _ hkept⟩
        split_ifs with hstate
        · rw [hnone hstate]
          rfl
        · rfl

end Ignores

theorem fileMessage_of_not_enabled {i : Input} (h : ¬ sv.enabled i.event = true) :
    sv.fileMessage codec i = none := by
  unfold fileMessage
  split
  · rw [if_neg h]
  · rfl

theorem fileMessage_of_not_frame {i : Input}
    (h : ¬ ∃ t data, i.event = .payloadRead t (some data)) : sv.fileMessage codec i = none := by
  unfold fileMessage
  split
  · rename_i t data hevent
    exact absurd ⟨t, data, hevent⟩ h
  · rfl

/-- A step leaves the files alone, or is the cleanup, or runs the handler of a file message. -/
theorem Ignores.step {R : Server → Server → Prop} (hR : Ignores R) (codec : Codec) (crypto : Crypto)
    (sv : Server) (i : Input) :
    (sv.fileMessage codec i = none ∧ R sv (step codec crypto sv i)) ∨
      (sv.fileMessage codec i = none ∧ ∃ db, step codec crypto sv i = { sv with db := db } ∧
        db.files = (FileStore.cleanupExpired sv.db i.draws.nowUnix).files ∧
        db.fileChunks = (FileStore.cleanupExpired sv.db i.draws.nowUnix).fileChunks) ∨
      ∃ s x m, sv.fileMessage codec i = some (s, x, m) ∧ sv.sessions[s]? = some x ∧
        x.state = .established ∧ Server.step codec crypto sv i =
          ((sv.modify s fun x => { x with reading := none }).handleFileMessage codec i.draws s x
            m).doReadFrameHeader s := by
  have hT := hR.tolerates codec
  unfold Server.step
  by_cases henabled : sv.enabled i.event = true
  · rw [if_pos henabled]
    by_cases hframe : ∃ t data, i.event = .payloadRead t (some data)
    · obtain ⟨t, data, hevent⟩ := hframe
      exact (hR.perform_frame hevent henabled).imp_right fun h => Or.inr ⟨t, h⟩
    · have hnone : sv.fileMessage codec i = none := fileMessage_of_not_frame hframe
      by_cases hcleanup : i.event = .cleanup
      · right; left
        rw [hcleanup]
        exact ⟨hnone, _, rfl, rfl, rfl⟩
      · refine Or.inl ⟨hnone, ?_⟩
        by_cases haccept : ∃ ip, i.event = .accept ip
        · obtain ⟨ip, haccept⟩ := haccept
          rw [haccept]
          unfold perform onAccept
          dsimp only
          split_ifs
          · exact hR.rest _ _ rfl rfl rfl
          · exact hR.rest _ _ rfl rfl rfl
          · exact hR.trans (hR.accept sv) (hR.rest _ _ rfl rfl rfl)
        · push Not at hframe haccept
          exact hT.perform hframe haccept hcleanup
  · rw [if_neg henabled]
    exact Or.inl ⟨fileMessage_of_not_enabled henabled, hR.refl sv⟩

/-- The files and their chunks are the same. -/
structure FilesKept (sv sv' : Server) : Prop where
  files : sv'.db.files = sv.db.files
  fileChunks : sv'.db.fileChunks = sv.db.fileChunks

theorem ignores_filesKept : Ignores FilesKept where
  refl _ := ⟨rfl, rfl⟩
  trans h h' := ⟨h'.files.trans h.files, h'.fileChunks.trans h.fileChunks⟩
  modify _ _ _ _ := ⟨rfl, rfl⟩
  log _ _ _ _ := ⟨rfl, rfl⟩
  rest _ _ _ hdb _ := ⟨by rw [hdb], by rw [hdb]⟩
  relay _ _ _ := ⟨rfl, rfl⟩
  setTables _ _ hfiles hchunks := ⟨hfiles, hchunks⟩
  accept _ := ⟨rfl, rfl⟩

/-! ## What the handlers do to the tables -/

/-- `handle_file_request` creates the row of the file. -/
def Accepts (db : Database) (req : FileUploadRequest) : Prop :=
  req.fileSize ≠ 0 ∧ req.fileSize.toNat ≤ maxFileSize ∧ req.fileId ∉ db.files

instance (db : Database) (req : FileUploadRequest) : Decidable (Accepts db req) :=
  inferInstanceAs (Decidable (_ ∧ _ ∧ _))

/-- The limit on messages lets another one of the session through. -/
def allowed (x : Session) (now : Time) : Bool :=
  match x.msgRateLimiter with
  | none => true
  | some limiter => (limiter.allow now).1

/-- The upload for which `handle_file_upload` stores the chunk. -/
def takesChunk (db : Database) (now : Time) (x : Session) (chunk : FileUploadChunk) :
    Option FileUploadState :=
  if allowed x now then
    (x.activeUploads.lookup chunk.fileId).filter fun upload =>
      decide (chunk.chunkIndex.toNat < upload.totalChunks) &&
        (FileStore.storeChunk db chunk.fileId chunk.chunkIndex chunk.data).1
  else none

/-- A refused request is answered; for an accepted one there is a row of the file and an entry of
the session. -/
theorem handleFileRequest_cases (req : FileUploadRequest) :
    (¬ Accepts sv.db req ∧ ∃ code message, sv.handleFileRequest codec d s x req =
        sv.sendFileError codec d s req.fileId code message) ∨
      Accepts sv.db req ∧ ∃ (row : FileRow) (db : Database) (upload : FileUploadState),
        row.fileSize = req.fileSize.toNat ∧ row.isComplete = false ∧ row.senderId = x.userId ∧
        db.files = sv.db.files.insert req.fileId row ∧ db.fileChunks = sv.db.fileChunks ∧
        upload.bytesReceived = 0 ∧ sv.handleFileRequest codec d s x req =
          ({ sv with db := db }.modify s fun x =>
            { x with activeUploads := x.activeUploads.insert req.fileId upload }).sendFileProgress
              codec d s req.fileId 0 req.fileSize.toNat "uploading" := by
  unfold handleFileRequest
  by_cases hzero : req.fileSize = 0
  · rw [if_pos hzero]
    exact Or.inl ⟨fun h => h.1 hzero, _, _, rfl⟩
  · rw [if_neg hzero]
    by_cases hlarge : req.fileSize.toNat > maxFileSize
    · rw [if_pos hlarge]
      exact Or.inl ⟨fun h => Nat.not_lt.2 h.2.1 hlarge, _, _, rfl⟩
    · rw [if_neg hlarge]
      dsimp only
      generalize hmetadata : FileMetadata.mk req.fileId _ _ _ _ _ _ _ _ _ _ = metadata
      have hid : metadata.fileId = req.fileId := by rw [← hmetadata]
      have hsize : metadata.fileSize = req.fileSize.toNat := by rw [← hmetadata]
      have hsender : metadata.senderId = x.userId := by rw [← hmetadata]
      have hnew : metadata.isComplete = false := by rw [← hmetadata]
      rcases FileStore.createFile_cases sv.db metadata d.nowUnix with
        ⟨hmem, e⟩ | ⟨hfree, htrue, hchunks, row, hrow, hincomplete, hrowSender, hfiles⟩
      · rw [e]
        exact Or.inl ⟨fun h => h.2.2 (hid ▸ hmem), _, _, rfl⟩
      · rcases hcreate : FileStore.createFile sv.db metadata d.nowUnix with ⟨created, db⟩
        rw [hcreate] at htrue hchunks hfiles
        cases htrue
        exact Or.inr ⟨⟨hzero, Nat.not_lt.1 hlarge, hid ▸ hfree⟩, row, db, _, hrow.trans hsize,
          hincomplete.trans hnew, hrowSender.trans hsender, hid ▸ hfiles, hchunks, rfl, rfl⟩

theorem db_handleFileRequest (req : FileUploadRequest) :
    ¬ Accepts sv.db req ∧ (sv.handleFileRequest codec d s x req).db = sv.db ∨
      Accepts sv.db req ∧
        (sv.handleFileRequest codec d s x req).db.fileChunks = sv.db.fileChunks ∧
        ∃ row : FileRow, row.fileSize = req.fileSize.toNat ∧ row.isComplete = false ∧
          row.senderId = x.userId ∧
          (sv.handleFileRequest codec d s x req).db.files = sv.db.files.insert req.fileId row := by
  rcases @handleFileRequest_cases codec d sv s x req with ⟨hrefused, code, message, e⟩ |
    ⟨haccepts, row, db, upload, hsize, hincomplete, hsender, hfiles, hchunks, -, e⟩
  · rw [e]
    exact Or.inl ⟨hrefused, db_sendEnvelope _ _⟩
  · rw [e, sendFileProgress, db_sendEnvelope]
    exact Or.inr ⟨haccepts, hchunks, row, hsize, hincomplete, hsender, hfiles⟩

/-- `scan_result` makes `handle_file_upload` delete the file. -/
def reportsThreat (data : Bytes) : Bool :=
  VirusScannerManager.isEnabled && !(VirusScannerManager.scan data).error &&
    !(VirusScannerManager.scan data).clean

theorem reportsThreat_eq_false (data : Bytes) : reportsThreat data = false := by
  simp [reportsThreat, VirusScannerManager.scan, VirusScannerManager.isAvailable,
    VirusScanner.isAvailable]

/-- The scanner is not there, so that the file is marked complete and the upload ends. -/
theorem finishUpload_eq (fileId : Str) (upload : FileUploadState) :
    sv.finishUpload codec d s fileId upload =
      ({ sv with db := FileStore.markComplete sv.db fileId .null }.sendEnvelope d s .fileComplete
        (codec.fileComplete.serialize ⟨fileId, upload.bytesReceived⟩)).modify s fun x =>
          { x with activeUploads := x.activeUploads.erase fileId } := by
  have hclean := reportsThreat_eq_false (assembledFile sv.db fileId upload.totalChunks)
  unfold reportsThreat at hclean
  unfold finishUpload
  dsimp only
  rw [if_neg (by rw [hclean]; exact Bool.false_ne_true)]

theorem db_finishUpload (fileId : Str) (upload : FileUploadState) :
    (sv.finishUpload codec d s fileId upload).db = FileStore.markComplete sv.db fileId .null := by
  rw [finishUpload_eq]
  exact db_sendEnvelope _ _

theorem db_allowMessage : (sv.allowMessage d s x).1 = allowed x d.now ∧
    (sv.allowMessage d s x).2.db = sv.db := by
  unfold allowMessage allowed
  cases x.msgRateLimiter with
  | none => exact ⟨rfl, rfl⟩
  | some limiter => exact ⟨rfl, rfl⟩

/-- A refused chunk is answered; an accepted one is stored, and the last one ends the upload. -/
theorem handleFileUpload_cases (chunk : FileUploadChunk) :
    (takesChunk sv.db d.now x chunk = none ∧ ∃ code message,
        sv.handleFileUpload codec d s x chunk =
          (sv.allowMessage d s x).2.sendFileError codec d s chunk.fileId code message) ∨
      ∃ upload upload' sv₁, takesChunk sv.db d.now x chunk = some upload ∧
        upload' = { upload with
          bytesReceived := upload.bytesReceived + chunk.data.length } ∧
        sv₁ = ({ (sv.allowMessage d s x).2 with
          db := (FileStore.storeChunk sv.db chunk.fileId chunk.chunkIndex chunk.data).2
          }.modify s fun x =>
          { x with activeUploads := x.activeUploads.insert chunk.fileId upload' }).sendFileProgress
            codec d s chunk.fileId upload'.bytesReceived upload'.fileSize "uploading" ∧
        sv.handleFileUpload codec d s x chunk =
          if chunk.isLast then sv₁.finishUpload codec d s chunk.fileId upload' else sv₁ := by
  obtain ⟨hallowed, hdb⟩ := @db_allowMessage d sv s x
  unfold handleFileUpload takesChunk
  rw [← hallowed]
  rcases hallow : sv.allowMessage d s x with ⟨ok, sv₁⟩
  rw [hallow] at hdb
  dsimp only at hdb ⊢
  cases ok with
  | false => exact Or.inl ⟨rfl, _, _, rfl⟩
  | true =>
    dsimp only
    rw [if_pos rfl]
    cases hupload : x.activeUploads.lookup chunk.fileId with
    | none => exact Or.inl ⟨rfl, _, _, rfl⟩
    | some upload =>
      dsimp only
      by_cases hindex : chunk.chunkIndex.toNat ≥ upload.totalChunks
      · rw [if_pos hindex]
        refine Or.inl ⟨?_, _, _, rfl⟩
        rw [Option.filter_some, if_neg]
        simp [hindex]
      · rw [if_neg hindex, hdb]
        rcases hstore : FileStore.storeChunk sv.db chunk.fileId chunk.chunkIndex chunk.data with
          ⟨ok, db⟩
        cases ok with
        | false =>
          have hfailed : db = sv₁.db := by
            rcases FileStore.storeChunk_cases sv.db chunk.fileId chunk.chunkIndex chunk.data with
              e | ⟨-, -, htrue, -⟩
            · rw [hstore] at e
              exact (Prod.mk.inj e).2.trans hdb.symm
            · rw [hstore] at htrue
              cases htrue
          refine Or.inl ⟨?_, _, _, by rw [hfailed]⟩
          rw [Option.filter_some, if_neg]
          simp
        | true =>
          refine Or.inr ⟨upload, _, _, ?_, rfl, rfl, rfl⟩
          rw [Option.filter_some, if_pos]
          simp [Nat.not_le.1 hindex]

theorem db_handleFileUpload (chunk : FileUploadChunk) :
    (takesChunk sv.db d.now x chunk = none ∧ (sv.handleFileUpload codec d s x chunk).db = sv.db) ∨
      ((takesChunk sv.db d.now x chunk).isSome = true ∧
        (sv.handleFileUpload codec d s x chunk).db =
          if chunk.isLast then
            FileStore.markComplete
              (FileStore.storeChunk sv.db chunk.fileId chunk.chunkIndex chunk.data).2
              chunk.fileId .null
          else (FileStore.storeChunk sv.db chunk.fileId chunk.chunkIndex chunk.data).2) := by
  rcases @handleFileUpload_cases codec d sv s x chunk with ⟨hnone, code, message, e⟩ |
    ⟨upload, upload', sv₁, htakes, -, hsv₁, e⟩
  · rw [e]
    exact Or.inl ⟨hnone, (db_sendEnvelope _ _).trans (@db_allowMessage d sv s x).2⟩
  · have hdb : sv₁.db =
        (FileStore.storeChunk sv.db chunk.fileId chunk.chunkIndex chunk.data).2 := by
      rw [hsv₁, sendFileProgress, db_sendEnvelope]
      rfl
    rw [e, htakes]
    refine Or.inr ⟨rfl, ?_⟩
    split_ifs
    · rw [db_finishUpload, hdb]
    · exact hdb

theorem db_sendChunks (fileId : Str) (fileSize totalChunks n i : ℕ) (sv : Server) :
    (sendChunks codec d s fileId fileSize totalChunks n i sv).db = sv.db := by
  induction n generalizing i sv with
  | zero => rfl
  | succ n ih =>
    unfold sendChunks
    split
    · exact db_sendEnvelope _ _
    · dsimp only
      rw [ih, sendFileProgress, db_sendEnvelope, db_sendEnvelope]

theorem db_handleFileDownload (req : FileDownloadRequest) :
    (sv.handleFileDownload codec d s req).db = sv.db := by
  unfold handleFileDownload
  split
  · exact db_sendEnvelope _ _
  · exact db_sendChunks _ _ _ _ _ _

/-! ## What a step does to the tables -/

/-- The request for which the step creates a file. -/
def createdFile (codec : Codec) (sv : Server) (i : Input) : Option FileUploadRequest :=
  match sv.fileMessage codec i with
  | some (_, _, .request req) => if Accepts sv.db req then some req else none
  | _ => none

theorem accepts_of_createdFile {i : Input} {req : FileUploadRequest}
    (h : sv.createdFile codec i = some req) : Accepts sv.db req := by
  unfold createdFile at h
  split at h
  · split_ifs at h with haccepts
    cases h
    exact haccepts
  · cases h

/-- The chunk that the step stores, with the upload it belongs to. -/
def storedChunk (codec : Codec) (sv : Server) (i : Input) :
    Option (FileUploadChunk × FileUploadState) :=
  match sv.fileMessage codec i with
  | some (_, x, .chunk chunk) =>
    (takesChunk sv.db i.draws.now x chunk).map fun upload => (chunk, upload)
  | _ => none

/-- The download that the step handles. -/
def download (codec : Codec) (sv : Server) (i : Input) : Option FileDownloadRequest :=
  match sv.fileMessage codec i with
  | some (_, _, .download req) => some req
  | _ => none

/-- The row of a file that was marked complete. -/
def completed (row : FileRow) : FileRow := { row with isComplete := true, fileChecksum := none }

/-- What a step does to the files and their chunks: the tables afterwards are those of `db`. -/
inductive FileStep (codec : Codec) (sv : Server) (i : Input) (db : Database) : Prop
  | kept (hcreated : sv.createdFile codec i = none) (hstored : sv.storedChunk codec i = none)
      (hfiles : db.files = sv.db.files) (hchunks : db.fileChunks = sv.db.fileChunks)
  | cleaned (hcreated : sv.createdFile codec i = none) (hstored : sv.storedChunk codec i = none)
      (hfiles : db.files = (FileStore.cleanupExpired sv.db i.draws.nowUnix).files)
      (hchunks : db.fileChunks = (FileStore.cleanupExpired sv.db i.draws.nowUnix).fileChunks)
  | created (req : FileUploadRequest) (row : FileRow) (hcreated : sv.createdFile codec i = some req)
      (hstored : sv.storedChunk codec i = none) (hnew : req.fileId ∉ sv.db.files)
      (hsize : row.fileSize = req.fileSize.toNat) (hincomplete : row.isComplete = false)
      (hfiles : db.files = sv.db.files.insert req.fileId row)
      (hchunks : db.fileChunks = sv.db.fileChunks)
      (hsender : ∃ s x, sv.fileMessage codec i = some (s, x, .request req) ∧
        row.senderId = x.userId)
  | stored (chunk : FileUploadChunk) (upload : FileUploadState)
      (hcreated : sv.createdFile codec i = none)
      (hstored : sv.storedChunk codec i = some (chunk, upload)) (hdata : chunk.data ≠ [])
      (hfiles : ∀ id, db.files.lookup id =
        if chunk.isLast = true ∧ id = chunk.fileId then (sv.db.files.lookup id).map completed
        else sv.db.files.lookup id)
      (hchunks : db.fileChunks = sv.db.fileChunks.insert
        (chunk.fileId, toInt32 chunk.chunkIndex) ⟨chunk.data, chunk.data.length⟩)

theorem fileStep_of_db {i : Input} {m : FileMessage} {db : Database} {sv₁ : Server}
    (hm : sv.fileMessage codec i = some (s, x, m)) (hsv₁ : sv₁.db = sv.db)
    (hdb : db = (sv₁.handleFileMessage codec i.draws s x m).db) : FileStep codec sv i db := by
  cases m with
  | request req =>
    have hstored : sv.storedChunk codec i = none := by rw [storedChunk, hm]
    have hcreated : sv.createdFile codec i = if Accepts sv.db req then some req else none := by
      rw [createdFile, hm]
    rcases @db_handleFileRequest codec i.draws sv₁ s x req with
      ⟨hrefused, e⟩ | ⟨haccepts, hchunks, row, hsize, hincomplete, hsender, hfiles⟩
    · rw [hsv₁] at hrefused
      rw [if_neg hrefused] at hcreated
      have hsame : db = sv.db := hdb.trans (e.trans hsv₁)
      exact .kept hcreated hstored (by rw [hsame]) (by rw [hsame])
    · rw [hsv₁] at haccepts hchunks hfiles
      rw [if_pos haccepts] at hcreated
      exact .created req row hcreated hstored haccepts.2.2 hsize hincomplete (hdb ▸ hfiles)
        (hdb ▸ hchunks) ⟨s, x, hm, hsender⟩
  | chunk chunk =>
    have hcreated : sv.createdFile codec i = none := by rw [createdFile, hm]
    have hstored : sv.storedChunk codec i =
        (takesChunk sv.db i.draws.now x chunk).map fun upload => (chunk, upload) := by
      rw [storedChunk, hm]
    rcases @db_handleFileUpload codec i.draws sv₁ s x chunk with ⟨hnone, e⟩ | ⟨htakes, e⟩
    · rw [hsv₁] at hnone e
      rw [hnone] at hstored
      have hsame : db = sv.db := hdb.trans e
      exact .kept hcreated hstored (by rw [hsame]) (by rw [hsame])
    · rw [hsv₁] at htakes e
      obtain ⟨upload, hupload⟩ := Option.isSome_iff_exists.1 htakes
      rw [hupload] at hstored
      have hok :
          (FileStore.storeChunk sv.db chunk.fileId chunk.chunkIndex chunk.data).1 = true := by
        unfold takesChunk at hupload
        split_ifs at hupload
        have htest := (Option.filter_eq_some_iff.1 hupload).2
        rw [Bool.and_eq_true] at htest
        exact htest.2
      rcases FileStore.storeChunk_cases sv.db chunk.fileId chunk.chunkIndex chunk.data with
        hfailed | ⟨hdata, -, -, hfiles, hchunks⟩
      · rw [hfailed] at hok
        cases hok
      · refine .stored chunk upload hcreated hstored hdata (fun id => ?_) ?_
        · rw [hdb, show handleFileMessage codec i.draws sv₁ s x (.chunk chunk) =
            sv₁.handleFileUpload codec i.draws s x chunk from rfl, e]
          by_cases hlast : chunk.isLast = true
          · rw [if_pos hlast, FileStore.lookup_files_markComplete, hfiles]
            simp only [hlast, true_and]
            split_ifs <;> rfl
          · rw [if_neg hlast, if_neg fun h => hlast h.1, hfiles]
        · rw [hdb, show handleFileMessage codec i.draws sv₁ s x (.chunk chunk) =
            sv₁.handleFileUpload codec i.draws s x chunk from rfl, e]
          split_ifs
          · rw [FileStore.fileChunks_markComplete, hchunks]
          · exact hchunks
  | download req =>
    have hsame : db = sv.db := hdb.trans ((db_handleFileDownload req).trans hsv₁)
    exact .kept (by rw [createdFile, hm]) (by rw [storedChunk, hm]) (by rw [hsame]) (by rw [hsame])

/-- Every step does one of these to the files. -/
theorem fileStep (codec : Codec) (crypto : Crypto) (sv : Server) (i : Input) :
    FileStep codec sv i (step codec crypto sv i).db := by
  rcases ignores_filesKept.step codec crypto sv i with ⟨hm, hkept⟩ |
    ⟨hm, db, hstep, hfiles, hchunks⟩ | ⟨s, x, m, hm, hx, hstate, hstep⟩
  · exact .kept (by rw [createdFile, hm]) (by rw [storedChunk, hm]) hkept.files hkept.fileChunks
  · rw [hstep]
    exact .cleaned (by rw [createdFile, hm]) (by rw [storedChunk, hm]) hfiles hchunks
  · have hdb : (sv.modify s fun x => { x with reading := none }).db = sv.db := rfl
    rw [hstep]
    exact fileStep_of_db hm hdb rfl

/-- A row after the step is the row before it, or the row of a new file, or the row of a file that
was just completed. -/
theorem lookup_files_step {i : Input} {fileId : Str} {row : FileRow}
    (hrow : (step codec crypto sv i).db.files.lookup fileId = some row) :
    sv.db.files.lookup fileId = some row ∨
      (∃ req ∈ sv.createdFile codec i, req.fileId = fileId ∧ row.isComplete = false ∧
        ∃ s x, sv.fileMessage codec i = some (s, x, .request req) ∧ row.senderId = x.userId) ∨
      ∃ p ∈ sv.storedChunk codec i, p.1.isLast = true ∧ p.1.fileId = fileId ∧
        ∃ old, sv.db.files.lookup fileId = some old ∧ row = completed old := by
  rcases fileStep codec crypto sv i with ⟨-, -, hfiles, -⟩ | ⟨-, -, hfiles, -⟩ |
    ⟨req, row', hcreated, -, -, -, hincomplete, hfiles, -, hsender⟩ |
    ⟨chunk, upload, -, hstored, -, hfiles, -⟩
  · rw [hfiles] at hrow
    exact Or.inl hrow
  · rw [hfiles, FileStore.lookup_files_cleanupExpired] at hrow
    exact Or.inl (Option.filter_eq_some_iff.1 hrow).1
  · rw [hfiles, UnorderedMap.lookup_insert_ite] at hrow
    split_ifs at hrow with hid
    · cases hrow
      exact Or.inr (Or.inl ⟨req, hcreated, hid.symm, hincomplete, hsender⟩)
    · exact Or.inl hrow
  · rw [hfiles] at hrow
    split_ifs at hrow with hlast
    · obtain ⟨old, hold, rfl⟩ := Option.map_eq_some_iff.1 hrow
      exact Or.inr (Or.inr ⟨_, hstored, hlast.1, hlast.2.symm, old, hold, rfl⟩)
    · exact Or.inl hrow

/-- Only a request makes a file appear. -/
theorem mem_files_of_step {i : Input} {fileId : Str}
    (hnew : ∀ req ∈ sv.createdFile codec i, req.fileId ≠ fileId)
    (h : fileId ∈ (step codec crypto sv i).db.files) : fileId ∈ sv.db.files := by
  rw [UnorderedMap.mem_iff_lookup] at h ⊢
  obtain ⟨row, hrow⟩ := h
  rcases lookup_files_step hrow with hrow | ⟨req, hcreated, hid, -⟩ | ⟨-, -, -, -, old, hold, -⟩
  · exact ⟨row, hrow⟩
  · exact absurd hid (hnew req hcreated)
  · exact ⟨old, hold⟩

end Server

end Ircord

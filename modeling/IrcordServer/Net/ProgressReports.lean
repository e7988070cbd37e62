import IrcordServer.Net.FileDownloads
import IrcordServer.Net.FileOwners

/-!
# What file transfers report

An upload reports `bytes_received`, a counter of the session that grows with every chunk that is
stored; the table keeps one chunk for each index.  A download reports the chunks that it has sent,
as if each had `downloadChunkSize` bytes.  The reports are true as long as what is stored is new in
its file, and what is sent has that many bytes (`CountsOnce`).
-/

open Container Run

namespace Ircord

/-- A `FILE_PROGRESS` or a `FILE_COMPLETE`. -/
inductive FileReport
  | progress (fileId : Str) (bytesTransferred totalBytes : ℕ) (status : String)
  | complete (fileId : Str) (totalBytes : ℕ)
  deriving DecidableEq

namespace FileReport

/-- The type and the payload with which it is sent. -/
def message (codec : Codec) : FileReport → MessageType × Bytes
  | progress fileId bytesTransferred totalBytes status =>
    let percent : ℚ := bytesTransferred / totalBytes * 100
    (.fileProgress,
      codec.fileProgress.serialize ⟨fileId, bytesTransferred, totalBytes, percent, str status⟩)
  | complete fileId totalBytes => (.fileComplete, codec.fileComplete.serialize ⟨fileId, totalBytes⟩)

/-- What is reported was received, and is not more than the whole file. -/
def Received (db : Database) : FileReport → Prop
  | progress fileId bytesTransferred totalBytes _ =>
    bytesTransferred = FileStore.getReceivedBytes db fileId ∧ bytesTransferred ≤ totalBytes
  | complete fileId totalBytes => totalBytes = FileStore.getReceivedBytes db fileId

instance (db : Database) (r : FileReport) : Decidable (r.Received db) := by
  cases r
  · exact inferInstanceAs (Decidable (_ ∧ _))
  · exact inferInstanceAs (Decidable (_ = _))

end FileReport

def FileReply.report : FileReply → Option FileReport
  | .progress fileId bytesTransferred totalBytes status =>
    some (.progress fileId bytesTransferred totalBytes status)
  | _ => none

/-- A `FILE_PROGRESS` of a download, with the bytes of the file that were sent before it. -/
structure Progress where
  sent : ℕ
  bytesTransferred : ℕ
  totalBytes : ℕ
  deriving DecidableEq

/-- The progress in the replies, after `sent` bytes. -/
def progressed : ℕ → List FileReply → List Progress
  | _, [] => []
  | sent, .chunk chunk :: replies => progressed (sent + chunk.data.length) replies
  | sent, .progress _ bytesTransferred totalBytes _ :: replies =>
    ⟨sent, bytesTransferred, totalBytes⟩ :: progressed sent replies
  | sent, .error _ _ _ :: replies => progressed sent replies

/-- A download that starts at the first chunk reports what was sent; none reports more than the
whole file. -/
def Progress.Sent (first : UInt32) (p : Progress) : Prop :=
  (first = 0 → p.bytesTransferred = p.sent) ∧ p.bytesTransferred ≤ p.totalBytes

instance (first : UInt32) (p : Progress) : Decidable (p.Sent first) :=
  inferInstanceAs (Decidable (_ ∧ _))

namespace Server

variable {codec : Codec} {crypto : Crypto} {d : Draws} {sv sv' : Server} {i : Input}
  {s t : SessionId} {x : Session} {fileId : Str} {db : Database}

/-- The report of a request that is accepted. -/
def requestReport (req : FileUploadRequest) : FileReport :=
  .progress req.fileId 0 req.fileSize.toNat "uploading"

/-- The reports of a chunk that is stored. -/
def chunkReports (chunk : FileUploadChunk) (upload : FileUploadState) : List FileReport :=
  let bytesReceived := upload.bytesReceived + chunk.data.length
  .progress chunk.fileId bytesReceived upload.fileSize "uploading" ::
    if chunk.isLast then [.complete chunk.fileId bytesReceived] else []

/-- What the handler of a file message reports. -/
def fileReports (db : Database) (now : Time) (x : Session) : FileMessage → List FileReport
  | .request req =>
    if Accepts db req then [requestReport req] else []
  | .chunk chunk => ((takesChunk db now x chunk).map (chunkReports chunk)).getD []
  | .download req => (downloadReplies db req).filterMap FileReply.report

/-- The reports of a step. -/
def reports (codec : Codec) (sv : Server) (i : Input) : List FileReport :=
  match sv.fileMessage codec i with
  | none => []
  | some (_, x, m) => fileReports sv.db i.draws.now x m

/-! ## The reports are what is written -/

/-- The reports that were written so far, with their sessions. -/
def reported (sv : Server) : List (SessionId × MessageType × Bytes) :=
  sv.written.filterMap fun e =>
    if e.2.type = .fileProgress ∨ e.2.type = .fileComplete then
      some (e.1, e.2.type, e.2.payload)
    else none

theorem reported_sendEnvelope (hs : (sv.sessions[s]?).isSome = true) (type : MessageType)
    (payload : Bytes) : (sv.sendEnvelope d s type payload).reported =
      sv.reported ++ if type = .fileProgress ∨ type = .fileComplete then [(s, type, payload)]
        else [] := by
  obtain ⟨x, hx⟩ := Option.isSome_iff_exists.1 hs
  unfold sendEnvelope
  rw [hx]
  refine (List.filterMap_append (l := sv.written)).trans (congrArg (sv.reported ++ ·) ?_)
  split_ifs with htype
  · exact List.filterMap_cons_some (if_pos htype)
  · exact List.filterMap_cons_none (if_neg htype)

/-- A report is written. -/
theorem reported_sendReport (hs : (sv.sessions[s]?).isSome = true) (r : FileReport) :
    (sv.sendEnvelope d s (r.message codec).1 (r.message codec).2).reported =
      sv.reported ++ [(s, r.message codec)] := by
  rw [reported_sendEnvelope hs, if_pos]
  cases r with
  | progress => exact Or.inl rfl
  | complete => exact Or.inr rfl

theorem reported_sendFileProgress (hs : (sv.sessions[s]?).isSome = true)
    (bytesTransferred totalBytes : ℕ) (status : String) :
    (sv.sendFileProgress codec d s fileId bytesTransferred totalBytes status).reported =
      sv.reported ++
        [(s, FileReport.message codec (.progress fileId bytesTransferred totalBytes status))] :=
  reported_sendReport hs (.progress fileId bytesTransferred totalBytes status)

theorem reported_sendFileError (hs : (sv.sessions[s]?).isSome = true) (code : UInt32)
    (message : Str) : (sv.sendFileError codec d s fileId code message).reported = sv.reported := by
  rw [sendFileError, reported_sendEnvelope hs, if_neg (by decide), List.append_nil]

theorem reported_handleFileRequest (hs : (sv.sessions[s]?).isSome = true)
    (req : FileUploadRequest) : (sv.handleFileRequest codec d s x req).reported =
      sv.reported ++ (fileReports sv.db d.now x (.request req)).map
        fun r => (s, r.message codec) := by
  rw [fileReports]
  rcases @handleFileRequest_cases codec d sv s x req with ⟨hrefused, code, message, e⟩ |
    ⟨haccepts, row, db, upload, -, -, -, -, -, -, e⟩
  · rw [e, reported_sendFileError hs, if_neg hrefused, List.map_nil, List.append_nil]
  · rw [e, if_pos haccepts]
    refine reported_sendFileProgress ?_ 0 req.fileSize.toNat "uploading"
    exact (isSome_modify _).trans hs

theorem reported_handleFileUpload (hs : (sv.sessions[s]?).isSome = true)
    (chunk : FileUploadChunk) : (sv.handleFileUpload codec d s x chunk).reported =
      sv.reported ++ (fileReports sv.db d.now x (.chunk chunk)).map
        fun r => (s, r.message codec) := by
  have hallow : (sv.allowMessage d s x).2.reported = sv.reported ∧
      (((sv.allowMessage d s x).2.sessions[s]?).isSome = true) := by
    unfold allowMessage
    split
    · exact ⟨rfl, hs⟩
    · exact ⟨rfl, (isSome_modify _).trans hs⟩
  rw [fileReports]
  rcases @handleFileUpload_cases codec d sv s x chunk with ⟨hnone, code, message, e⟩ |
    ⟨upload, upload', sv₁, htakes, hupload, hsv₁, e⟩
  · rw [e, reported_sendFileError hallow.2, hallow.1, hnone]
    exact (List.append_nil _).symm
  · have hfound : ((sv₁.sessions[s]?).isSome = true) := by
      rw [hsv₁]
      exact (isSome_sendEnvelope _ _).trans ((isSome_modify _).trans hallow.2)
    have hstored : sv₁.reported = sv.reported ++ [(s, FileReport.message codec
        (.progress chunk.fileId upload'.bytesReceived upload'.fileSize "uploading"))] := by
      rw [hsv₁, ← hallow.1]
      refine reported_sendFileProgress ?_ _ _ "uploading"
      exact (isSome_modify _).trans hallow.2
    have hfinish : (sv₁.finishUpload codec d s chunk.fileId upload').reported =
        sv₁.reported ++ [(s, FileReport.message codec
          (.complete chunk.fileId upload'.bytesReceived))] := by
      rw [finishUpload_eq]
      refine Eq.trans (reported_sendReport ?_ (.complete chunk.fileId upload'.bytesReceived)) rfl
      exact hfound
    rw [e, htakes, Option.map_some, Option.getD_some, chunkReports]
    subst hupload
    by_cases hlast : chunk.isLast = true
    · rw [if_pos hlast, if_pos hlast, hfinish, hstored, List.append_assoc]
      rfl
    · rw [if_neg hlast, if_neg hlast, hstored]
      rfl

theorem reported_sendReplies (hs : (sv.sessions[s]?).isSome = true) (replies : List FileReply) :
    (replies.foldl (sendReply codec d s) sv).reported =
      sv.reported ++ (replies.filterMap FileReply.report).map fun r => (s, r.message codec) := by
  induction replies generalizing sv with
  | nil => exact (List.append_nil _).symm
  | cons reply replies ih =>
    have hfound : ((sendReply codec d s sv reply).sessions[s]?).isSome = true := by
      cases reply with
      | chunk => exact (isSome_sendEnvelope _ _).trans hs
      | progress => exact (isSome_sendEnvelope _ _).trans hs
      | error => exact (isSome_sendEnvelope _ _).trans hs
    have hreply : (sendReply codec d s sv reply).reported =
        sv.reported ++ reply.report.toList.map fun r => (s, r.message codec) := by
      cases reply with
      | chunk chunk => exact reported_sendEnvelope hs _ _
      | progress id bytesTransferred totalBytes status =>
        exact reported_sendFileProgress hs bytesTransferred totalBytes status
      | error id code message =>
        exact (reported_sendFileError hs code message).trans (List.append_nil _).symm
    have hreports : (reply :: replies).filterMap FileReply.report =
        reply.report.toList ++ replies.filterMap FileReply.report := by
      cases reply <;> rfl
    rw [List.foldl_cons, ih hfound, hreply, hreports, List.map_append, List.append_assoc]

/-- A step that handles a file message writes its reports. -/
theorem reported_step (codec : Codec) (crypto : Crypto) {m : FileMessage}
    (hm : sv.fileMessage codec i = some (s, x, m)) :
    (step codec crypto sv i).reported =
      sv.reported ++ (sv.reports codec i).map fun r => (s, r.message codec) := by
  rcases ignores_uploadsKept.step codec crypto sv i with ⟨hnone, -⟩ | ⟨hnone, -⟩ |
    ⟨s', x', m', hm', hx, -, hstep⟩
  · rw [hm] at hnone
    cases hnone
  · rw [hm] at hnone
    cases hnone
  · cases hm.symm.trans hm'
    have hs : ((sv.modify s fun x => { x with reading := none }).sessions[s]?).isSome = true :=
      (isSome_modify _).trans (Option.isSome_iff_exists.2 ⟨x, hx⟩)
    rw [hstep, reports, hm]
    cases m with
    | request req => exact reported_handleFileRequest hs req
    | chunk chunk => exact reported_handleFileUpload hs chunk
    | download req =>
      refine (congrArg reported (handleFileDownload_eq req)).trans ?_
      exact reported_sendReplies hs _

/-! ## Downloads -/

/-- The chunk ends within the file and, in a download from the first chunk on, has as many bytes as
are reported for it. -/
def FullChunk (db : Database) (fileId : Str) (fileSize : ℕ) (first : UInt32) (j : ℕ) : Prop :=
  (j + 1) * downloadChunkSize ≤ fileSize ∧
    (first = 0 → ∀ data ∈ FileStore.getChunk db fileId (UInt32.ofNat j),
      data.length = downloadChunkSize)

instance (db : Database) (fileId : Str) (fileSize : ℕ) (first : UInt32) (j : ℕ) :
    Decidable (FullChunk db fileId fileSize first j) :=
  inferInstanceAs (Decidable (_ ∧ (_ → ∀ _ ∈ _, _)))

/-- The download gets to full chunks only. -/
def SendsFull (db : Database) (req : FileDownloadRequest) : Prop :=
  ∀ row ∈ FileStore.getFile db req.fileId, ∀ j < downloadChunks row.fileSize,
    req.chunkIndex.toNat ≤ j →
      (∀ k ≤ j, req.chunkIndex.toNat ≤ k →
        (FileStore.getChunk db req.fileId (UInt32.ofNat k)).isSome = true) →
      FullChunk db req.fileId row.fileSize req.chunkIndex j

instance (db : Database) (req : FileDownloadRequest) : Decidable (SendsFull db req) :=
  inferInstanceAs (Decidable (∀ _ ∈ _, ∀ _ < _, _ → (∀ _ ≤ _, _ → _) → _))

theorem sent_chunkReplies_iff {fileSize totalChunks : ℕ} {first : UInt32} (n j sent : ℕ)
    (hsent : first = 0 → sent = j * downloadChunkSize) :
    (∀ p ∈ progressed sent (chunkReplies db fileId fileSize totalChunks n j), p.Sent first) ↔
      ∀ k, j ≤ k → k < j + n →
        (∀ l, j ≤ l → l ≤ k → (FileStore.getChunk db fileId (UInt32.ofNat l)).isSome = true) →
        FullChunk db fileId fileSize first k := by
  induction n generalizing j sent with
  | zero =>
    refine iff_of_true (fun p hp => ?_) fun k hjk hk => by omega
    cases hp
  | succ n ih =>
    unfold chunkReplies
    cases hchunk : FileStore.getChunk db fileId (UInt32.ofNat j) with
    | none =>
      -- the loop ends here, and no chunk is reached
      refine iff_of_true (fun p hp => ?_) fun k hjk _ hthere => ?_
      · cases hp
      · have hj := hthere j (Nat.le_refl j) hjk
        rw [hchunk] at hj
        cases hj
    | some data =>
      have hfull : (Progress.mk (sent + data.length) ((j + 1) * downloadChunkSize) fileSize).Sent
          first ↔ FullChunk db fileId fileSize first j := by
        unfold Progress.Sent FullChunk
        rw [hchunk, and_comm]
        refine and_congr_right fun _ => forall_congr' fun hfirst => ?_
        have := hsent hfirst
        simp only [Option.mem_def, Option.some.injEq, forall_eq']
        rw [this, Nat.succ_mul]
        omega
      have hnext (h : FullChunk db fileId fileSize first j) (hfirst : first = 0) :
          sent + data.length = (j + 1) * downloadChunkSize := by
        rw [h.2 hfirst data hchunk, hsent hfirst, Nat.succ_mul]
      show (∀ p ∈ Progress.mk (sent + data.length) ((j + 1) * downloadChunkSize) fileSize ::
        progressed (sent + data.length) _, p.Sent first) ↔ _
      rw [List.forall_mem_cons, hfull]
      constructor
      · rintro ⟨hj, hrest⟩ k hjk hk hthere
        by_cases hkj : k = j
        · exact hkj ▸ hj
        · exact (ih (j + 1) _ (hnext hj)).1 hrest k (by omega) (by omega) fun l hl hlk =>
            hthere l (by omega) hlk
      · intro hall
        have hj : FullChunk db fileId fileSize first j := by
          refine hall j (Nat.le_refl j) (by omega) fun l hl hlj => ?_
          rw [Nat.le_antisymm hlj hl, hchunk]
          rfl
        refine ⟨hj, (ih (j + 1) _ (hnext hj)).2 fun k hjk hk hthere => ?_⟩
        refine hall k (by omega) (by omega) fun l hl hlk => ?_
        by_cases hlj : l = j
        · rw [hlj, hchunk]
          rfl
        · exact hthere l (by omega) hlk

/-- The reports of a download are those of what it sends, exactly when it gets to full chunks
only. -/
theorem sent_downloadReplies_iff (req : FileDownloadRequest) :
    (∀ p ∈ progressed 0 (downloadReplies db req), p.Sent req.chunkIndex) ↔ SendsFull db req := by
  unfold downloadReplies SendsFull
  cases FileStore.getFile db req.fileId with
  | none =>
    refine iff_of_true (fun p hp => ?_) fun row hrow => ?_
    · cases hp
    · cases hrow
  | some row =>
    have hzero : req.chunkIndex = 0 → 0 = req.chunkIndex.toNat * downloadChunkSize := by
      intro hfirst
      rw [hfirst]
      rfl
    refine (sent_chunkReplies_iff _ _ 0 hzero).trans ?_
    simp only [Option.mem_def, Option.some.injEq, forall_eq']
    constructor
    · intro h j hj hfirst hthere
      exact h j hfirst (by omega) fun l hl hlj => hthere l hlj hl
    · intro h k hfirst hk hthere
      exact h k (by omega) hfirst fun l hlk hl => hthere l hl hlk

/-! ## What was received of a file, after a step -/

/-- A file stays the same unless a chunk is stored for it. -/
theorem storedBytes_step_of_ne (hthere : fileId ∈ (step codec crypto sv i).db.files)
    (hstored : ∀ p ∈ sv.storedChunk codec i, p.1.fileId ≠ fileId) :
    FileStore.storedBytes (step codec crypto sv i).db fileId =
      FileStore.storedBytes sv.db fileId := by
  rcases fileStep codec crypto sv i with ⟨-, -, -, hchunks⟩ | ⟨-, -, hfiles, hchunks⟩ |
    ⟨req, row, -, -, -, -, -, -, hchunks, -⟩ | ⟨chunk, upload, -, hchunk, -, -, hchunks⟩
  · exact FileStore.storedBytes_congr hchunks
  · rw [hfiles] at hthere
    exact (FileStore.storedBytes_congr hchunks).trans (FileStore.storedBytes_cleanupExpired hthere)
  · exact FileStore.storedBytes_congr hchunks
  · exact FileStore.storedBytes_insert_of_ne (hstored _ hchunk).symm hchunks

theorem storedBytes_step_created (crypto : Crypto) {req : FileUploadRequest}
    (h : sv.createdFile codec i = some req) :
    FileStore.storedBytes (step codec crypto sv i).db req.fileId = 0 := by
  rcases fileStep codec crypto sv i with ⟨hnone, -⟩ | ⟨hnone, -⟩ |
    ⟨req', row, hcreated, -, hnew, -, -, -, hchunks, -⟩ | ⟨-, -, hnone, -⟩
  · cases hnone.symm.trans h
  · cases hnone.symm.trans h
  · cases hcreated.symm.trans h
    exact (FileStore.storedBytes_congr hchunks).trans (FileStore.storedBytes_of_notMem hnew)
  · cases hnone.symm.trans h

theorem storedBytes_step_stored (crypto : Crypto) {chunk : FileUploadChunk}
    {upload : FileUploadState} (h : sv.storedChunk codec i = some (chunk, upload)) :
    FileStore.storedBytes (step codec crypto sv i).db chunk.fileId =
      chunk.data.length + FileStore.otherBytes sv.db chunk.fileId chunk.chunkIndex := by
  rcases fileStep codec crypto sv i with ⟨-, hnone, -⟩ | ⟨-, hnone, -⟩ | ⟨-, -, -, hnone, -⟩ |
    ⟨chunk', upload', -, hchunk, -, -, hchunks⟩
  · cases hnone.symm.trans h
  · cases hnone.symm.trans h
  · cases hnone.symm.trans h
  · cases hchunk.symm.trans h
    exact FileStore.storedBytes_insert hchunks

/-! ## Steps whose reports are true -/

/-- An upload reports what was received of the file, and a download what it has sent of it. -/
structure ReportsTrue (codec : Codec) (crypto : Crypto) (sv : Server) (i : Input) : Prop where
  upload : sv.download codec i = none →
    ∀ r ∈ sv.reports codec i, r.Received (step codec crypto sv i).db
  download : ∀ req ∈ sv.download codec i,
    ∀ p ∈ progressed 0 (downloadReplies sv.db req), p.Sent req.chunkIndex

/-- A chunk that is stored is new in its file, which has room for it; a download gets to full chunks
only. -/
def CountsOnce (codec : Codec) (sv : Server) (i : Input) : Prop :=
  (∀ p ∈ sv.storedChunk codec i, FileStore.chunkBytes sv.db p.1.fileId p.1.chunkIndex = 0 ∧
      FileStore.getReceivedBytes sv.db p.1.fileId + p.1.data.length ≤ p.2.fileSize) ∧
    ∀ req ∈ sv.download codec i, SendsFull sv.db req

instance (codec : Codec) (sv : Server) (i : Input) : Decidable (CountsOnce codec sv i) :=
  inferInstanceAs (Decidable ((∀ _ ∈ _, _ ∧ _) ∧ ∀ _ ∈ _, _))

theorem reports_eq (h : sv.download codec i = none) :
    sv.reports codec i = (sv.createdFile codec i).toList.map requestReport ++
      (sv.storedChunk codec i).toList.flatMap fun p => chunkReports p.1 p.2 := by
  unfold reports createdFile storedChunk
  unfold download at h
  rcases hm : sv.fileMessage codec i with _ | ⟨s, x, req | chunk | req⟩
  · rfl
  · dsimp only
    rw [fileReports]
    split_ifs <;> rfl
  · dsimp only
    rw [fileReports]
    cases takesChunk sv.db i.draws.now x chunk with
    | none => rfl
    | some upload => exact (List.flatMap_singleton _ _).symm
  · rw [hm] at h
    cases h

theorem download_eq_none_of_stored {p : FileUploadChunk × FileUploadState}
    (h : sv.storedChunk codec i = some p) : sv.download codec i = none := by
  unfold download
  unfold storedChunk at h
  split
  · rename_i hm
    rw [hm] at h
    cases h
  · rfl

theorem received_chunkReports_iff (chunk : FileUploadChunk) (upload : FileUploadState) :
    (∀ r ∈ chunkReports chunk upload, r.Received db) ↔
      upload.bytesReceived + chunk.data.length = FileStore.getReceivedBytes db chunk.fileId ∧
        upload.bytesReceived + chunk.data.length ≤ upload.fileSize := by
  unfold chunkReports
  dsimp only
  rw [List.forall_mem_cons]
  refine and_iff_left_of_imp fun h r hr => ?_
  split_ifs at hr
  · rw [List.mem_singleton.1 hr]
    exact h.1
  · cases hr

end Server

namespace Custody

open Server

variable {codec : Codec} {crypto : Crypto} {c : Custody} {i : Input} {t : SessionId} {fileId : Str}

/-- A chunk is stored for the session that created the file. -/
def StoresCreated (codec : Codec) (c : Custody) (i : Input) : Prop :=
  ∀ p ∈ c.sv.storedBy codec i, c.creators.lookup p.2.1.fileId = some p.1

instance (codec : Codec) (c : Custody) (i : Input) : Decidable (StoresCreated codec c i) :=
  inferInstanceAs (Decidable (∀ _ ∈ _, _))

/-- The session that created a file counts what was received of it. -/
def Counted (c : Custody) : Prop :=
  ∀ fileId t upload, c.creators.lookup fileId = some t →
    (c.sv.uploads t).lookup fileId = some upload → fileId ∈ c.sv.db.files →
      upload.bytesReceived = FileStore.storedBytes c.sv.db fileId

/-- The file was just created, and its upload begins. -/
theorem counted_created {s : SessionId} {req : FileUploadRequest} {upload : FileUploadState}
    (hcreated : c.sv.createdBy codec i = some (s, req))
    (hcreator : (c.step codec crypto i).creators.lookup req.fileId = some t)
    (hentry : ((c.step codec crypto i).sv.uploads t).lookup req.fileId = some upload) :
    upload.bytesReceived =
      FileStore.storedBytes (c.step codec crypto i).sv.db req.fileId := by
  rw [creators_of_createdBy hcreated] at hcreator
  cases hcreator
  have hbytes : FileStore.storedBytes (c.step codec crypto i).sv.db req.fileId = 0 :=
    storedBytes_step_created crypto (createdFile_of_createdBy hcreated)
  rcases uploadStep codec crypto c.sv i with ⟨hnone, -, -⟩ |
    ⟨s', req', new, hcreated', -, hzero, huploads⟩ | ⟨-, -, -, -, hnone, -, -, -, -⟩
  · cases hnone.symm.trans hcreated
  · cases hcreated'.symm.trans hcreated
    have hnew : ((c.step codec crypto i).sv.uploads t).lookup req.fileId = some new := by
      refine (congrArg (AList.lookup req.fileId) (huploads t)).trans ?_
      rw [if_pos rfl]
      exact AList.lookup_insert _
    cases hnew.symm.trans hentry
    exact hzero.trans hbytes.symm
  · cases hnone.symm.trans hcreated

/-- A chunk that is new is counted once. -/
theorem counted_stored {s : SessionId} {chunk : FileUploadChunk}
    {upload upload' : FileUploadState} (h : Counted c)
    (hstored : c.sv.storedBy codec i = some (s, chunk, upload))
    (hcreator : c.creators.lookup chunk.fileId = some s)
    (hentry : (c.sv.uploads s).lookup chunk.fileId = some upload)
    (hthere : chunk.fileId ∈ c.sv.db.files) (honce : c.sv.CountsOnce codec i)
    (hbytes : upload'.bytesReceived = upload.bytesReceived + chunk.data.length) :
    upload'.bytesReceived =
      FileStore.storedBytes (c.step codec crypto i).sv.db chunk.fileId := by
  have hchunk : c.sv.storedChunk codec i = some (chunk, upload) := by
    rw [storedChunk_eq, hstored]
    rfl
  have hnew : FileStore.chunkBytes c.sv.db chunk.fileId chunk.chunkIndex = 0 :=
    (honce.1 _ hchunk).1
  have hafter : FileStore.storedBytes (c.step codec crypto i).sv.db chunk.fileId = _ :=
    storedBytes_step_stored crypto hchunk
  have hbefore := FileStore.storedBytes_eq_add c.sv.db chunk.fileId chunk.chunkIndex
  have hcount := h chunk.fileId s upload hcreator hentry hthere
  omega

theorem counted_step (h : Counted c) (hown : StoresCreated codec c i)
    (honce : c.sv.CountsOnce codec i) : Counted (c.step codec crypto i) := by
  intro fileId t upload hcreator hentry hthere
  by_cases hnew : ∃ s req, c.sv.createdBy codec i = some (s, req) ∧ req.fileId = fileId
  · obtain ⟨s, req, hcreated, rfl⟩ := hnew
    exact counted_created hcreated hcreator hentry
  -- the file was there before, and its creator is the same
  have hold : fileId ∈ c.sv.db.files := by
    refine mem_files_of_step (fun req hreq hid => ?_) hthere
    rw [createdFile_eq] at hreq
    obtain ⟨⟨s, req'⟩, hcreated, rfl⟩ := Option.map_eq_some_iff.1 hreq
    exact hnew ⟨s, req', hcreated, hid⟩
  rw [creators_of_mem hold] at hcreator
  have hsame (hentry : (c.sv.uploads t).lookup fileId = some upload)
      (hother : ∀ p ∈ c.sv.storedBy codec i, p.2.1.fileId ≠ fileId) :
      upload.bytesReceived = FileStore.storedBytes (c.step codec crypto i).sv.db fileId := by
    refine (h fileId t upload hcreator hentry hold).trans (storedBytes_step_of_ne hthere ?_).symm
    intro p hp
    rw [storedChunk_eq] at hp
    obtain ⟨p', hp', rfl⟩ := Option.map_eq_some_iff.1 hp
    exact hother p' hp'
  have huploads_eq (m : UnorderedMap Str FileUploadState)
      (e : (c.step codec crypto i).sv.uploads t = m) : m.lookup fileId = some upload := e ▸ hentry
  rcases uploadStep codec crypto c.sv i with ⟨-, hstored, huploads⟩ |
    ⟨s, req, new, hcreated, hstored, -, huploads⟩ |
    ⟨s, chunk, old, new, -, hstored, hentryOld, hbytes, huploads⟩
  · refine hsame (huploads_eq _ (huploads t)) fun p hp => ?_
    cases hstored.symm.trans hp
  · have hentry' := huploads_eq _ (huploads t)
    refine hsame ?_ fun p hp => by cases hstored.symm.trans hp
    split_ifs at hentry'
    · rw [UnorderedMap.lookup_insert_ite, if_neg] at hentry'
      · exact hentry'
      · rintro rfl
        exact hnew ⟨s, req, hcreated, rfl⟩
    · exact hentry'
  · have hentry' := huploads_eq _ (huploads t)
    have howner : c.creators.lookup chunk.fileId = some s := hown _ hstored
    by_cases hid : chunk.fileId = fileId
    · subst hid
      cases howner.symm.trans hcreator
      rw [if_pos rfl] at hentry'
      split_ifs at hentry'
      · rw [UnorderedMap.lookup_erase_ite, if_pos rfl] at hentry'
        cases hentry'
      · rw [UnorderedMap.lookup_insert_ite, if_pos rfl] at hentry'
        cases hentry'
        exact counted_stored h hstored howner hentryOld hold honce hbytes
    · refine hsame ?_ fun p hp => ?_
      · split_ifs at hentry'
        · rwa [UnorderedMap.lookup_erase_ite, if_neg (Ne.symm hid),
            UnorderedMap.lookup_insert_ite, if_neg (Ne.symm hid)] at hentry'
        · rwa [UnorderedMap.lookup_insert_ite, if_neg (Ne.symm hid)] at hentry'
        · exact hentry'
      · cases hstored.symm.trans hp
        exact hid

/-- When the counters are right, a chunk is reported truly if it is new and there is room for it. -/
theorem received_stored_iff {s : SessionId} {chunk : FileUploadChunk} {upload : FileUploadState}
    (h : Counted c) (hown : StoresCreated codec c i)
    (hstored : c.sv.storedBy codec i = some (s, chunk, upload)) :
    (∀ r ∈ chunkReports chunk upload, r.Received (Server.step codec crypto c.sv i).db) ↔
      FileStore.chunkBytes c.sv.db chunk.fileId chunk.chunkIndex = 0 ∧
        FileStore.getReceivedBytes c.sv.db chunk.fileId + chunk.data.length ≤ upload.fileSize := by
  have hchunk : c.sv.storedChunk codec i = some (chunk, upload) := by
    rw [storedChunk_eq, hstored]
    rfl
  obtain ⟨hentry, hthere⟩ := storedBy_eq_some hstored
  have hcount := h chunk.fileId s upload (hown _ hstored) hentry hthere
  have hbefore := FileStore.storedBytes_eq_add c.sv.db chunk.fileId chunk.chunkIndex
  rw [received_chunkReports_iff, FileStore.getReceivedBytes_eq, FileStore.getReceivedBytes_eq,
    storedBytes_step_stored crypto hchunk, hcount]
  omega

theorem received_reports_iff (h : Counted c) (hown : StoresCreated codec c i)
    (hdownload : c.sv.download codec i = none) :
    (∀ r ∈ c.sv.reports codec i, r.Received (Server.step codec crypto c.sv i).db) ↔
      ∀ p ∈ c.sv.storedChunk codec i,
        FileStore.chunkBytes c.sv.db p.1.fileId p.1.chunkIndex = 0 ∧
          FileStore.getReceivedBytes c.sv.db p.1.fileId + p.1.data.length ≤ p.2.fileSize := by
  have hcreated : ∀ r ∈ (c.sv.createdFile codec i).toList.map requestReport,
      r.Received (Server.step codec crypto c.sv i).db := by
    intro r hr
    obtain ⟨req, hreq, rfl⟩ := List.mem_map.1 hr
    refine ⟨?_, Nat.zero_le _⟩
    rw [FileStore.getReceivedBytes_eq,
      storedBytes_step_created crypto (Option.mem_toList.1 hreq)]
  rw [reports_eq hdownload, List.forall_mem_append, and_iff_right hcreated, storedChunk_eq]
  cases hstored : c.sv.storedBy codec i with
  | none => exact iff_of_true (List.forall_mem_nil _) fun p hp => by cases hp
  | some stored =>
    obtain ⟨s, chunk, upload⟩ := stored
    rw [Option.map_some, Option.toList_some, List.flatMap_singleton]
    simp only [Option.mem_def, Option.some.injEq, forall_eq']
    exact received_stored_iff h hown hstored

/-- When the counters are right, the reports of a step are true exactly when it counts what it
stores or sends once. -/
theorem reportsTrue_iff (h : Counted c) (hown : StoresCreated codec c i) :
    c.sv.ReportsTrue codec crypto i ↔ c.sv.CountsOnce codec i := by
  have hdownloads : (∀ req ∈ c.sv.download codec i,
        ∀ p ∈ progressed 0 (downloadReplies c.sv.db req), p.Sent req.chunkIndex) ↔
      ∀ req ∈ c.sv.download codec i, SendsFull c.sv.db req :=
    forall₂_congr fun req _ => sent_downloadReplies_iff req
  constructor
  · rintro ⟨hupload, hdownload⟩
    refine ⟨fun p hp => ?_, hdownloads.1 hdownload⟩
    have hnone := download_eq_none_of_stored hp
    exact (received_reports_iff h hown hnone).1 (hupload hnone) p hp
  · rintro ⟨hstored, hdownload⟩
    exact ⟨fun hnone => (received_reports_iff h hown hnone).2 hstored, hdownloads.2 hdownload⟩

theorem counted_start (config : Config) (db : Database) : Counted (start config db) := by
  intro fileId t upload hcreator
  cases hcreator

/-- In the runs in which every chunk is stored for the session that created its file, all reports
are true exactly when every step counts what it stores or sends once. -/
theorem reports_true_iff (codec : Codec) (crypto : Crypto) (config : Config) (db : Database)
    (is : List Input)
    (hown : AllSteps (step codec crypto) (StoresCreated codec) (start config db) is) :
    AllSteps (step codec crypto) (fun c => c.sv.ReportsTrue codec crypto) (start config db) is ↔
      AllSteps (step codec crypto) (fun c => c.sv.CountsOnce codec) (start config db) is :=
  allSteps_iff_of_states (counted_start config db) (fun _ _ h hown => reportsTrue_iff h hown)
    (fun _ _ h hown honce => counted_step h hown honce) hown

/-! ## Reports that are not true -/

/-- `alice` sends her first piece twice. -/
def repeatedRun : List Input :=
  (loginEvents 0 (str "alice") aliceSignature ++ Archive.requestEvents 0 ++
    Archive.chunkEvents 0 ⟨str "f", 0, List.replicate 10 1, false⟩ ++
    Archive.chunkEvents 0 ⟨str "f", 0, List.replicate 10 1, false⟩).map Event.atZero

/-- `alice` sends both pieces of her file of 20 bytes, and asks for it. -/
def returnedRun : List Input :=
  Archive.wholeRun ++ (frameEvents 0 .fileDownload
    (Codec.proto3.fileDownloadRequest.serialize ⟨str "f", 0⟩)).map Event.atZero

/-- The repeated piece is counted twice, and 65536 bytes are reported for 10 that were sent. -/
theorem not_reportsTrue_runs :
    ¬ AllSteps (step .proto3 aliceBobCrypto) (fun c => c.sv.ReportsTrue .proto3 aliceBobCrypto)
        (start ⟨10, 10, 10, []⟩ .empty) repeatedRun ∧
      ¬ AllSteps (step .proto3 aliceBobCrypto) (fun c => c.sv.ReportsTrue .proto3 aliceBobCrypto)
        (start ⟨10, 10, 10, []⟩ .empty) returnedRun := by
  constructor
  · intro h
    obtain ⟨hupload, -⟩ := h.after 11 (by decide +kernel)
    have hreport : .progress (str "f") 20 20 "uploading" ∈
        (final (step .proto3 aliceBobCrypto) (start ⟨10, 10, 10, []⟩ .empty)
          (repeatedRun.take 11)).sv.reports .proto3 repeatedRun[11] := by
      decide +kernel
    have hreceived := (hupload (by decide +kernel) _ hreport).1
    revert hreceived
    decide +kernel
  · intro h
    obtain ⟨-, hdownload⟩ := h.after 13 (by decide +kernel)
    have hprogress : ⟨10, 65536, 20⟩ ∈ progressed 0 (downloadReplies
        (final (step .proto3 aliceBobCrypto) (start ⟨10, 10, 10, []⟩ .empty)
          (returnedRun.take 13)).sv.db ⟨str "f", 0⟩) := by
      decide +kernel
    have hsent := (hdownload ⟨str "f", 0⟩ (by decide +kernel) _ hprogress).1 rfl
    cases hsent

/-- Each piece is sent once, and every report is true. -/
theorem reports_true_iff_wholeRun :
    AllSteps (step .proto3 aliceBobCrypto) (fun c => c.sv.ReportsTrue .proto3 aliceBobCrypto)
      (start ⟨10, 10, 10, []⟩ .empty) Archive.wholeRun :=
  (reports_true_iff .proto3 aliceBobCrypto ⟨10, 10, 10, []⟩ .empty Archive.wholeRun
    (by decide +kernel)).2 (by decide +kernel)

end Custody

end Ircord

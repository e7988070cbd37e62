import IrcordServer.Net.FileUploads

/-!
# Downloads

What `handle_file_download` sends, as a function of the tables (`downloadReplies`).  It does not ask
whether the file is complete, so that a file can be served that was never scanned.
-/

open Container Run

namespace Ircord

/-- What `handle_file_download` hands to `send_envelope`. -/
inductive FileReply
  | chunk (chunk : FileChunk)
  | progress (fileId : Str) (bytesTransferred totalBytes : ℕ) (status : String)
  | error (fileId : Str) (code : UInt32) (message : Str)
  deriving DecidableEq

namespace Server

variable {codec : Codec} {d : Draws} {sv : Server} {s : SessionId} {db : Database}

def sendReply (codec : Codec) (d : Draws) (s : SessionId) (sv : Server) : FileReply → Server
  | .chunk chunk => sv.sendEnvelope d s .fileChunk (codec.fileChunk.serialize chunk)
  | .progress fileId bytesTransferred totalBytes status =>
    sv.sendFileProgress codec d s fileId bytesTransferred totalBytes status
  | .error fileId code message => sv.sendFileError codec d s fileId code message

/-- The replies of the loop with `n` rounds to go, from chunk `i` on. -/
def chunkReplies (db : Database) (fileId : Str) (fileSize totalChunks : ℕ) : ℕ → ℕ → List FileReply
  | 0, _ => []
  | n + 1, i =>
    match FileStore.getChunk db fileId (UInt32.ofNat i) with
    | none => [.error fileId 4084 (str "Chunk not found: " ++ toStr i)]
    | some data =>
      .chunk ⟨fileId, UInt32.ofNat i, data, i + 1 == totalChunks⟩ ::
        .progress fileId ((i + 1) * downloadChunkSize) fileSize "downloading" ::
        chunkReplies db fileId fileSize totalChunks n (i + 1)

/-- The number of chunks that a download of a file of this size has. -/
def downloadChunks (fileSize : ℕ) : ℕ := (fileSize + downloadChunkSize - 1) / downloadChunkSize

def downloadReplies (db : Database) (req : FileDownloadRequest) : List FileReply :=
  match FileStore.getFile db req.fileId with
  | none => [.error req.fileId 4083 (str "File not found")]
  | some row =>
    chunkReplies db req.fileId row.fileSize (downloadChunks row.fileSize)
      (downloadChunks row.fileSize - req.chunkIndex.toNat) req.chunkIndex.toNat

theorem sendChunks_eq (fileId : Str) (fileSize totalChunks n i : ℕ) (sv : Server) :
    sendChunks codec d s fileId fileSize totalChunks n i sv =
      (chunkReplies sv.db fileId fileSize totalChunks n i).foldl (sendReply codec d s) sv := by
  induction n generalizing i sv with
  | zero => rfl
  | succ n ih =>
    unfold sendChunks chunkReplies
    cases FileStore.getChunk sv.db fileId (UInt32.ofNat i) with
    | none => rfl
    | some data =>
      dsimp only
      rw [ih, sendFileProgress, db_sendEnvelope, db_sendEnvelope]
      rfl

/-- `handle_file_download` sends these replies, and does nothing else. -/
theorem handleFileDownload_eq (req : FileDownloadRequest) :
    sv.handleFileDownload codec d s req =
      (downloadReplies sv.db req).foldl (sendReply codec d s) sv := by
  unfold handleFileDownload downloadReplies
  cases FileStore.getFile sv.db req.fileId with
  | none => rfl
  | some row => exact sendChunks_eq _ _ _ _ _ _

/-! ## Which files are served -/

theorem fileId_of_mem_chunkReplies {fileId : Str} {fileSize totalChunks n i : ℕ}
    {chunk : FileChunk} (h : .chunk chunk ∈ chunkReplies db fileId fileSize totalChunks n i) :
    chunk.fileId = fileId := by
  induction n generalizing i with
  | zero => cases h
  | succ n ih =>
    unfold chunkReplies at h
    split at h
    · simp at h
    · simp only [List.mem_cons, reduceCtorEq, false_or, FileReply.chunk.injEq] at h
      rcases h with rfl | h
      · rfl
      · exact ih h

theorem fileId_of_mem_downloadReplies {req : FileDownloadRequest} {chunk : FileChunk}
    (h : .chunk chunk ∈ downloadReplies db req) : chunk.fileId = req.fileId := by
  unfold downloadReplies at h
  split at h
  · simp at h
  · exact fileId_of_mem_chunkReplies h

/-- A chunk of the file is sent: the file is there, and the chunk that is asked for. -/
def Serves (db : Database) (req : FileDownloadRequest) (row : FileRow) : Prop :=
  FileStore.getFile db req.fileId = some row ∧
    req.chunkIndex.toNat < downloadChunks row.fileSize ∧
    (FileStore.getChunk db req.fileId req.chunkIndex).isSome = true

theorem exists_chunk_iff (req : FileDownloadRequest) :
    (∃ chunk, .chunk chunk ∈ downloadReplies db req) ↔ ∃ row, Serves db req row := by
  unfold downloadReplies Serves
  cases FileStore.getFile db req.fileId with
  | none => simp
  | some row =>
    dsimp only
    cases hrounds : downloadChunks row.fileSize - req.chunkIndex.toNat with
    | zero =>
      refine iff_of_false ?_ ?_
      · rintro ⟨chunk, h⟩
        cases h
      · rintro ⟨row', hrow, hlt, -⟩
        cases hrow
        omega
    | succ n =>
      unfold chunkReplies
      rw [UInt32.ofNat_toNat]
      cases hchunk : FileStore.getChunk db req.fileId req.chunkIndex with
      | none => simp
      | some data =>
        refine iff_of_true ⟨_, List.mem_cons_self⟩ ⟨row, rfl, by omega, rfl⟩

end Server

namespace Archive

variable {codec : Codec} {crypto : Crypto} {a : Archive} {i : Input}

/-- A chunk that a step sends belongs to a file that is complete, and whose upload was completed
after a scan that reported no threat. -/
def ServesFinished (codec : Codec) (a : Archive) (i : Input) : Prop :=
  ∀ req chunk, a.sv.download codec i = some req →
    .chunk chunk ∈ Server.downloadReplies a.sv.db req →
      (∃ row, a.sv.db.files.lookup chunk.fileId = some row ∧ row.isComplete = true) ∧
        ∃ f ∈ a.finished, f.fileId = chunk.fileId ∧ Server.reportsThreat f.assembled = false

/-- A file is complete when a chunk of it is asked for that is there. -/
def AsksForComplete (codec : Codec) (a : Archive) (i : Input) : Prop :=
  ∀ req row, a.sv.download codec i = some req → Server.Serves a.sv.db req row →
    row.isComplete = true

/-- Every file that is complete was scanned. -/
def CompleteScanned (a : Archive) : Prop :=
  ∀ fileId row, a.sv.db.files.lookup fileId = some row → row.isComplete = true →
    ∃ f ∈ a.finished, f.fileId = fileId ∧ Server.reportsThreat f.assembled = false

theorem servesFinished_iff (h : a.CompleteScanned) :
    ServesFinished codec a i ↔ AsksForComplete codec a i := by
  constructor
  · intro hserves req row hreq hrow
    obtain ⟨chunk, hchunk⟩ := (Server.exists_chunk_iff req).2 ⟨row, hrow⟩
    obtain ⟨⟨row', hrow', hcomplete⟩, -⟩ := hserves req chunk hreq hchunk
    rw [Server.fileId_of_mem_downloadReplies hchunk] at hrow'
    cases hrow.1.symm.trans hrow'
    exact hcomplete
  · intro hasks req chunk hreq hchunk
    obtain ⟨row, hrow⟩ := (Server.exists_chunk_iff req).1 ⟨chunk, hchunk⟩
    have hcomplete := hasks req row hreq hrow
    rw [Server.fileId_of_mem_downloadReplies hchunk]
    exact ⟨⟨row, hrow.1, hcomplete⟩, h req.fileId row hrow.1 hcomplete⟩

theorem completeScanned_step (h : a.CompleteScanned) :
    (a.step codec crypto i).CompleteScanned := by
  -- a file that was complete before was scanned
  have hold : ∀ fileId row, a.sv.db.files.lookup fileId = some row → row.isComplete = true →
      ∃ f ∈ (a.step codec crypto i).finished, f.fileId = fileId ∧
        Server.reportsThreat f.assembled = false := by
    intro fileId row hrow hcomplete
    obtain ⟨f, hf, hscanned⟩ := h fileId row hrow hcomplete
    exact ⟨f, List.mem_append_right _ hf, hscanned⟩
  intro fileId row hrow hcomplete
  rcases Server.lookup_files_step hrow with hrow | ⟨req, -, -, hincomplete, -⟩ |
    ⟨⟨chunk, upload⟩, hstored, hlast, hid, -⟩
  · exact hold fileId row hrow hcomplete
  · rw [hincomplete] at hcomplete
    cases hcomplete
  · obtain ⟨assembled, hfinishes⟩ := Server.finishes_of_some hstored
    rw [if_pos hlast] at hfinishes
    refine ⟨⟨chunk.fileId, upload.totalChunks, assembled⟩, List.mem_append_left _ ?_, hid,
      Server.reportsThreat_eq_false _⟩
    rw [hfinishes]
    exact List.mem_singleton_self _

/-- From any server whose complete files were scanned, the runs that serve only files that were
scanned and completed, are the runs in which only complete files are asked for. -/
theorem serves_finished_iff (codec : Codec) (crypto : Crypto) (a : Archive)
    (ha : a.CompleteScanned) (is : List Input) :
    AllSteps (step codec crypto) (ServesFinished codec) a is ↔
      AllSteps (step codec crypto) (AsksForComplete codec) a is := by
  have hscanned : AllStates (step codec crypto) CompleteScanned a is :=
    AllStates.of_invariant ha (fun _ _ h => completeScanned_step h) is
  constructor
  · exact fun h => h.of_states hscanned fun _ _ ha h => (servesFinished_iff ha).1 h
  · exact fun h => h.of_states hscanned fun _ _ ha h => (servesFinished_iff ha).2 h

theorem completeScanned_installed : installed.CompleteScanned := by
  intro id row hrow
  cases hrow

/-! ## A file that was never scanned -/

/-- `alice` uploads her first piece, without the flag, and `bob` asks for the file. -/
def unfinishedRun : List Input :=
  (loginEvents 0 (str "alice") Server.aliceSignature ++
    loginEvents 1 (str "bob") Server.bobSignature ++ requestEvents 0 ++
    chunkEvents 0 ⟨str "f", 0, List.replicate 10 1, false⟩ ++
    frameEvents 1 .fileDownload (Codec.proto3.fileDownloadRequest.serialize ⟨str "f", 0⟩)).map
      Event.atZero

/-- The server at the moment that `bob`'s request is read. -/
def unfinished : Archive :=
  final (step .proto3 Server.aliceBobCrypto) installed (unfinishedRun.take 17)

/-- `bob` gets the piece. -/
theorem not_servesFinished_unfinishedRun :
    ¬ AllSteps (step .proto3 Server.aliceBobCrypto) (ServesFinished .proto3) installed
        unfinishedRun := by
  intro h
  have hserves : ServesFinished .proto3 unfinished unfinishedRun[17] :=
    h.after 17 (by decide +kernel)
  have hdownload : unfinished.sv.download .proto3 unfinishedRun[17] = some ⟨str "f", 0⟩ := by
    decide +kernel
  have hchunk : .chunk ⟨str "f", 0, List.replicate 10 1, true⟩ ∈
      Server.downloadReplies unfinished.sv.db ⟨str "f", 0⟩ := by
    decide +kernel
  have hfinished : unfinished.finished = [] := by decide +kernel
  obtain ⟨-, f, hf, -⟩ := hserves _ _ hdownload hchunk
  rw [hfinished] at hf
  cases hf

/-- The upload is finished, and then `alice` asks for her file. -/
theorem serves_finished_iff_wholeRun :
    AllSteps (step .proto3 Server.aliceBobCrypto) (ServesFinished .proto3) installed
        (wholeRun ++ (frameEvents 0 .fileDownload
          (Codec.proto3.fileDownloadRequest.serialize ⟨str "f", 0⟩)).map Event.atZero) ↔
      AllSteps (step .proto3 Server.aliceBobCrypto) (AsksForComplete .proto3) installed
        (wholeRun ++ (frameEvents 0 .fileDownload
          (Codec.proto3.fileDownloadRequest.serialize ⟨str "f", 0⟩)).map Event.atZero) :=
  serves_finished_iff .proto3 Server.aliceBobCrypto installed completeScanned_installed _

end Archive

end Ircord

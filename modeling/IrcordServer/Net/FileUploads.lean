import IrcordServer.Net.Fanout
import IrcordServer.Net.FileMessages

/-!
# Complete files

`handle_file_upload` marks a file complete when a chunk comes that is flagged as the last one; it
does not ask whether the others are there.  The files that are marked complete are whole as long as
the clients flag only a chunk that completes the file (`EndsWhole`).
-/

open Container Run

namespace Ircord

/-- An upload that was completed: what was scanned, before the file was marked complete. -/
structure Finish where
  fileId : Str
  totalChunks : ℕ
  assembled : Bytes
  deriving DecidableEq

/-- The server with the uploads that were completed, the last one first. -/
structure Archive where
  sv : Server
  finished : List Finish

namespace Server

/-- The upload that the step completes: no threat was reported in the assembled file. -/
def finishes (codec : Codec) (sv : Server) (i : Input) : Option Finish :=
  match sv.storedChunk codec i with
  | none => none
  | some (chunk, upload) =>
    let db := (FileStore.storeChunk sv.db chunk.fileId chunk.chunkIndex chunk.data).2
    let assembled := assembledFile db chunk.fileId upload.totalChunks
    if chunk.isLast && !reportsThreat assembled then
      some ⟨chunk.fileId, upload.totalChunks, assembled⟩
    else none

theorem finishes_of_none {codec : Codec} {sv : Server} {i : Input}
    (h : sv.storedChunk codec i = none) : sv.finishes codec i = none := by
  rw [finishes, h]

theorem finishes_of_some {codec : Codec} {sv : Server} {i : Input} {chunk : FileUploadChunk}
    {upload : FileUploadState} (h : sv.storedChunk codec i = some (chunk, upload)) :
    ∃ assembled, sv.finishes codec i =
      if chunk.isLast = true then some ⟨chunk.fileId, upload.totalChunks, assembled⟩ else none := by
  rw [finishes, h]
  dsimp only
  rw [reportsThreat_eq_false, Bool.not_false, Bool.and_true]
  exact ⟨_, rfl⟩

end Server

namespace Archive

variable {codec : Codec} {crypto : Crypto} {a : Archive} {i : Input}

def step (codec : Codec) (crypto : Crypto) (a : Archive) (i : Input) : Archive where
  sv := Server.step codec crypto a.sv i
  finished := (a.sv.finishes codec i).toList ++ a.finished

/-- The upload that last completed the file. -/
def lastFinish (a : Archive) (fileId : Str) : Option Finish :=
  a.finished.find? fun f => f.fileId == fileId

/-- The file has all chunks of an upload, and no bytes more or less. -/
structure Whole (db : Database) (fileId : Str) (fileSize totalChunks : ℕ) : Prop where
  chunks : ∀ j < totalChunks, (FileStore.getChunk db fileId (UInt32.ofNat j)).isSome = true
  bytes : FileStore.storedBytes db fileId = fileSize

/-- Every file that is complete is whole, for the upload that completed it. -/
def CompleteWhole (a : Archive) : Prop :=
  ∀ fileId row, a.sv.db.files.lookup fileId = some row → row.isComplete = true →
    ∃ f, a.lastFinish fileId = some f ∧ Whole a.sv.db fileId row.fileSize f.totalChunks

/-- A chunk that is stored as the last one is the only one that was missing, and its size is what
was missing of the file; a chunk that is stored for a complete file does not change the size of
it. -/
def EndsWhole (codec : Codec) (a : Archive) (i : Input) : Prop :=
  ∀ chunk upload row, a.sv.storedChunk codec i = some (chunk, upload) →
    a.sv.db.files.lookup chunk.fileId = some row →
      (chunk.isLast = true → ∀ j < upload.totalChunks, UInt32.ofNat j = chunk.chunkIndex ∨
        (FileStore.getChunk a.sv.db chunk.fileId (UInt32.ofNat j)).isSome = true) ∧
      (chunk.isLast = true ∨ row.isComplete = true → chunk.data.length +
        FileStore.otherBytes a.sv.db chunk.fileId chunk.chunkIndex = row.fileSize)

/-! ## One step -/

theorem Whole.of_same {db db' : Database} {fileId : Str} {fileSize totalChunks : ℕ}
    (h : Whole db fileId fileSize totalChunks)
    (hchunks : ∀ j, FileStore.getChunk db' fileId j = FileStore.getChunk db fileId j)
    (hbytes : FileStore.storedBytes db' fileId = FileStore.storedBytes db fileId) :
    Whole db' fileId fileSize totalChunks where
  chunks j hj := by
    rw [hchunks]
    exact h.chunks j hj
  bytes := hbytes.trans h.bytes

/-- The files that are complete were so before, and have their chunks. -/
theorem CompleteWhole.of_same {a' : Archive} (h : a.CompleteWhole)
    (hfinished : a'.finished = a.finished)
    (hfiles : ∀ fileId row, a'.sv.db.files.lookup fileId = some row → row.isComplete = true →
      a.sv.db.files.lookup fileId = some row ∧
        (∀ j, FileStore.getChunk a'.sv.db fileId j = FileStore.getChunk a.sv.db fileId j) ∧
        FileStore.storedBytes a'.sv.db fileId = FileStore.storedBytes a.sv.db fileId) :
    a'.CompleteWhole := by
  intro fileId row hrow hcomplete
  obtain ⟨hold, hchunks, hbytes⟩ := hfiles fileId row hrow hcomplete
  obtain ⟨f, hf, hwhole⟩ := h fileId row hold hcomplete
  refine ⟨f, ?_, hwhole.of_same hchunks hbytes⟩
  rw [lastFinish, hfinished]
  exact hf

theorem endsWhole_of_none (h : a.sv.storedChunk codec i = none) : EndsWhole codec a i := by
  intro chunk upload row hstored
  rw [h] at hstored
  cases hstored

/-- The file of a chunk that is stored, when it is complete afterwards. -/
theorem whole_stored_iff {db : Database} {chunk : FileUploadChunk} {fileSize totalChunks : ℕ}
    (hchunks : db.fileChunks = a.sv.db.fileChunks.insert
      (chunk.fileId, toInt32 chunk.chunkIndex) ⟨chunk.data, chunk.data.length⟩) :
    Whole db chunk.fileId fileSize totalChunks ↔
      (∀ j < totalChunks, UInt32.ofNat j = chunk.chunkIndex ∨
        (FileStore.getChunk a.sv.db chunk.fileId (UInt32.ofNat j)).isSome = true) ∧
      chunk.data.length + FileStore.otherBytes a.sv.db chunk.fileId chunk.chunkIndex =
        fileSize := by
  have hget (j : ℕ) : (FileStore.getChunk db chunk.fileId (UInt32.ofNat j)).isSome = true ↔
      UInt32.ofNat j = chunk.chunkIndex ∨
        (FileStore.getChunk a.sv.db chunk.fileId (UInt32.ofNat j)).isSome = true := by
    rw [FileStore.getChunk_insert hchunks]
    by_cases hj : UInt32.ofNat j = chunk.chunkIndex
    · simp [hj]
    · simp [hj]
  have hbytes := FileStore.storedBytes_insert hchunks
  constructor
  · rintro ⟨h, h'⟩
    exact ⟨fun j hj => (hget j).1 (h j hj), hbytes.symm.trans h'⟩
  · rintro ⟨h, h'⟩
    exact ⟨fun j hj => (hget j).2 (h j hj), hbytes.trans h'⟩

section Stored

variable {chunk : FileUploadChunk} {upload : FileUploadState}
  (hstored : a.sv.storedChunk codec i = some (chunk, upload))

include hstored

/-- The upload that last completed the file of the chunk, after it was stored. -/
theorem lastFinish_stored : ∃ assembled, (a.step codec crypto i).lastFinish chunk.fileId =
    if chunk.isLast = true then some ⟨chunk.fileId, upload.totalChunks, assembled⟩
    else a.lastFinish chunk.fileId := by
  obtain ⟨assembled, hfinishes⟩ := Server.finishes_of_some hstored
  have hfinished : (a.step codec crypto i).finished =
      (a.sv.finishes codec i).toList ++ a.finished := rfl
  refine ⟨assembled, ?_⟩
  unfold lastFinish
  rw [hfinished, hfinishes]
  split_ifs
  · exact List.find?_cons_of_pos (by simp)
  · rfl

theorem lastFinish_stored_of_ne {id : Str} (hid : id ≠ chunk.fileId) :
    (a.step codec crypto i).lastFinish id = a.lastFinish id := by
  obtain ⟨assembled, hfinishes⟩ := Server.finishes_of_some hstored
  have hfinished : (a.step codec crypto i).finished =
      (a.sv.finishes codec i).toList ++ a.finished := rfl
  unfold lastFinish
  rw [hfinished, hfinishes]
  split_ifs
  · refine List.find?_cons_of_neg ?_
    simpa using hid.symm
  · rfl

variable
  (hfiles : ∀ id, (a.step codec crypto i).sv.db.files.lookup id =
    if chunk.isLast = true ∧ id = chunk.fileId then
      (a.sv.db.files.lookup id).map Server.completed
    else a.sv.db.files.lookup id)
  (hchunks : (a.step codec crypto i).sv.db.fileChunks = a.sv.db.fileChunks.insert
    (chunk.fileId, toInt32 chunk.chunkIndex) ⟨chunk.data, chunk.data.length⟩)

include hfiles hchunks

/-- The other files are as they were. -/
theorem completeWhole_stored_iff_at (h : a.CompleteWhole) :
    (a.step codec crypto i).CompleteWhole ↔ ∀ row,
      (a.step codec crypto i).sv.db.files.lookup chunk.fileId = some row →
        row.isComplete = true → ∃ f, (a.step codec crypto i).lastFinish chunk.fileId = some f ∧
          Whole (a.step codec crypto i).sv.db chunk.fileId row.fileSize f.totalChunks := by
  refine ⟨fun h' => h' chunk.fileId, fun h' id row hrow hcomplete => ?_⟩
  by_cases hid : id = chunk.fileId
  · subst hid
    exact h' row hrow hcomplete
  · rw [hfiles, if_neg fun h => hid h.2] at hrow
    obtain ⟨f, hf, hwhole⟩ := h id row hrow hcomplete
    refine ⟨f, (lastFinish_stored_of_ne hstored hid).trans hf, hwhole.of_same (fun j => ?_)
      (FileStore.storedBytes_insert_of_ne hid hchunks)⟩
    rw [FileStore.getChunk_insert hchunks, if_neg fun h => hid h.1]

/-- A step that stores a chunk. -/
theorem completeWhole_stored_iff (h : a.CompleteWhole) :
    (a.step codec crypto i).CompleteWhole ↔ EndsWhole codec a i := by
  obtain ⟨assembled, hfinish⟩ := @lastFinish_stored codec crypto a i chunk upload hstored
  rw [completeWhole_stored_iff_at hstored hfiles hchunks h]
  by_cases hlast : chunk.isLast = true
  · rw [if_pos hlast] at hfinish
    rw [hfiles, if_pos ⟨hlast, rfl⟩]
    constructor
    · intro h' chunk' upload' row hstored' hrow
      cases hstored.symm.trans hstored'
      obtain ⟨f, hf, hwhole⟩ := h' (Server.completed row) (by rw [hrow]; rfl) rfl
      cases hfinish.symm.trans hf
      obtain ⟨hindices, hbytes⟩ := (whole_stored_iff hchunks).1 hwhole
      exact ⟨fun _ => hindices, fun _ => hbytes⟩
    · intro hends row hrow hcomplete
      obtain ⟨row', hrow', rfl⟩ := Option.map_eq_some_iff.1 hrow
      obtain ⟨hindices, hbytes⟩ := hends chunk upload row' hstored hrow'
      exact ⟨_, hfinish, (whole_stored_iff hchunks).2 ⟨hindices hlast, hbytes (Or.inl hlast)⟩⟩
  · rw [if_neg hlast] at hfinish
    rw [hfiles, if_neg fun h => hlast h.1]
    constructor
    · intro h' chunk' upload' row hstored' hrow
      cases hstored.symm.trans hstored'
      refine ⟨fun h => absurd h hlast, fun hcomplete => ?_⟩
      obtain ⟨f, -, hwhole⟩ := h' row hrow (hcomplete.resolve_left hlast)
      exact ((whole_stored_iff hchunks).1 hwhole).2
    · intro hends row hrow hcomplete
      obtain ⟨f, hf, hwhole⟩ := h chunk.fileId row hrow hcomplete
      refine ⟨f, hfinish.trans hf, (whole_stored_iff hchunks).2 ⟨fun j hj => ?_, ?_⟩⟩
      · exact Or.inr (hwhole.chunks j hj)
      · exact (hends chunk upload row hstored hrow).2 (Or.inr hcomplete)

end Stored

theorem completeWhole_step_iff (h : a.CompleteWhole) :
    (a.step codec crypto i).CompleteWhole ↔ EndsWhole codec a i := by
  have hfinished (hstored : a.sv.storedChunk codec i = none) :
      (a.step codec crypto i).finished = a.finished := by
    show (a.sv.finishes codec i).toList ++ a.finished = a.finished
    rw [Server.finishes_of_none hstored]
    rfl
  have hdb : (a.step codec crypto i).sv.db = (Server.step codec crypto a.sv i).db := rfl
  rcases Server.fileStep codec crypto a.sv i with ⟨-, hstored, hfiles, hchunks⟩ |
    ⟨-, hstored, hfiles, hchunks⟩ |
    ⟨req, row, -, hstored, hnew, hsize, hincomplete, hfiles, hchunks⟩ |
    ⟨chunk, upload, -, hstored, -, hfiles, hchunks⟩
  · refine iff_of_true (h.of_same (hfinished hstored) fun id row hrow _ => ?_)
      (endsWhole_of_none hstored)
    rw [hdb, hfiles] at hrow
    exact ⟨hrow, FileStore.getChunk_congr hchunks, FileStore.storedBytes_congr hchunks⟩
  · refine iff_of_true (h.of_same (hfinished hstored) fun id row hrow _ => ?_)
      (endsWhole_of_none hstored)
    rw [hdb, hfiles] at hrow
    have hmem : id ∈ (FileStore.cleanupExpired a.sv.db i.draws.nowUnix).files :=
      UnorderedMap.mem_iff_lookup.2 ⟨row, hrow⟩
    rw [FileStore.lookup_files_cleanupExpired] at hrow
    refine ⟨(Option.filter_eq_some_iff.1 hrow).1, fun j => ?_, ?_⟩
    · exact (FileStore.getChunk_congr hchunks j).trans (FileStore.getChunk_cleanupExpired hmem j)
    · exact (FileStore.storedBytes_congr hchunks).trans (FileStore.storedBytes_cleanupExpired hmem)
  · refine iff_of_true (h.of_same (hfinished hstored) fun id row' hrow hcomplete => ?_)
      (endsWhole_of_none hstored)
    rw [hdb, hfiles, UnorderedMap.lookup_insert_ite] at hrow
    split_ifs at hrow
    · cases hrow
      rw [hincomplete] at hcomplete
      cases hcomplete
    · exact ⟨hrow, FileStore.getChunk_congr hchunks, FileStore.storedBytes_congr hchunks⟩
  · exact completeWhole_stored_iff hstored hfiles hchunks h

/-! ## Runs -/

/-- From any server whose complete files are whole, the runs in which they always are, are the runs
in which every chunk flagged as the last one completes its file. -/
theorem complete_files_whole_iff (codec : Codec) (crypto : Crypto) (a : Archive)
    (ha : a.CompleteWhole) (is : List Input) :
    AllStates (step codec crypto) CompleteWhole a is ↔
      AllSteps (step codec crypto) (EndsWhole codec) a is :=
  allStates_iff_allSteps ha fun _ _ h => completeWhole_step_iff h

/-- A server that has just been installed. -/
def installed : Archive := ⟨.start ⟨10, 10, 10, []⟩ .empty, []⟩

theorem completeWhole_installed : installed.CompleteWhole := by
  intro id row hrow
  cases hrow

/-! ## A file that is not whole -/

/-- A client sends a piece of a file. -/
def chunkEvents (s : SessionId) (chunk : FileUploadChunk) : List Event :=
  frameEvents s .fileUpload (Codec.proto3.fileUploadChunk.serialize chunk)

/-- A client announces a file of 20 bytes, in pieces of 10. -/
def requestEvents (s : SessionId) : List Event :=
  frameEvents s .fileUpload (Codec.proto3.fileUploadRequest.serialize
    ⟨str "f", str "f.txt", 20, [], str "bob", [], 10⟩)

/-- `alice` flags her first piece as the last one. -/
def earlyRun : List Input :=
  (loginEvents 0 (str "alice") Server.aliceSignature ++ requestEvents 0 ++
    chunkEvents 0 ⟨str "f", 0, List.replicate 10 1, true⟩).map Event.atZero

/-- `alice` sends both pieces and flags the second. -/
def wholeRun : List Input :=
  (loginEvents 0 (str "alice") Server.aliceSignature ++ requestEvents 0 ++
    chunkEvents 0 ⟨str "f", 0, List.replicate 10 1, false⟩ ++
    chunkEvents 0 ⟨str "f", 1, List.replicate 10 2, true⟩).map Event.atZero

/-- The file is complete with 10 bytes of 20. -/
theorem not_completeWhole_earlyRun :
    ¬ AllStates (step .proto3 Server.aliceBobCrypto) CompleteWhole installed earlyRun := by
  intro h
  have hfinal := h.final
  have hcomplete : ∃ row ∈ (final (step .proto3 Server.aliceBobCrypto) installed
      earlyRun).sv.db.files.lookup (str "f"), row.isComplete = true ∧ row.fileSize = 20 := by
    decide +kernel
  have hbytes : FileStore.storedBytes (final (step .proto3 Server.aliceBobCrypto) installed
      earlyRun).sv.db (str "f") = 10 := by
    decide +kernel
  obtain ⟨row, hrow, hcomplete, hsize⟩ := hcomplete
  obtain ⟨f, -, hwhole⟩ := hfinal (str "f") row hrow hcomplete
  have hwrong := hbytes.symm.trans (hwhole.bytes.trans hsize)
  cases hwrong

theorem complete_files_whole_iff_wholeRun :
    (∃ row ∈ (final (step .proto3 Server.aliceBobCrypto) installed
        wholeRun).sv.db.files.lookup (str "f"), row.isComplete = true) ∧
      (AllStates (step .proto3 Server.aliceBobCrypto) CompleteWhole installed wholeRun ↔
        AllSteps (step .proto3 Server.aliceBobCrypto) (EndsWhole .proto3) installed wholeRun) :=
  ⟨by decide +kernel,
    complete_files_whole_iff .proto3 Server.aliceBobCrypto installed completeWhole_installed
      wholeRun⟩

end Archive

end Ircord

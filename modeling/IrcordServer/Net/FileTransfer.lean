import IrcordServer.Net.Server
import IrcordServer.VirusScanner

/-!
# File transfer

`handle_file_request`, `handle_file_upload` and `handle_file_download` of `net/session.cpp`.  Of
`FileUploadState` only `received_chunks` and `file_id` are left out, which are written and never
read.
-/

open Container

namespace Ircord

namespace Server

variable (codec : Codec) (d : Draws) (sv : Server) (s : SessionId) (x : Session)

/-- `msg_rate_limiter_ && !msg_rate_limiter_->allow()` is false. -/
def allowMessage : Bool × Server :=
  match x.msgRateLimiter with
  | none => (true, sv)
  | some limiter =>
    let (allowed, limiter) := limiter.allow d.now
    (allowed, sv.modify s fun x => { x with msgRateLimiter := some limiter })

def sendFileError (fileId : Str) (code : UInt32) (message : Str) : Server :=
  sv.sendEnvelope d s .fileError (codec.fileError.serialize ⟨fileId, code, message⟩)

def sendFileProgress (fileId : Str) (bytesTransferred totalBytes : ℕ) (status : String) : Server :=
  let percent : ℚ := bytesTransferred / totalBytes * 100
  sv.sendEnvelope d s .fileProgress
    (codec.fileProgress.serialize ⟨fileId, bytesTransferred, totalBytes, percent, str status⟩)

/-! ## Upload -/

/-- 100 MB. -/
def maxFileSize : ℕ := 100 * 1024 * 1024

def handleFileRequest (req : FileUploadRequest) : Server :=
  if req.fileSize = 0 then
    sv.sendFileError codec d s req.fileId 4080 (str "File size must be greater than 0")
  else if req.fileSize.toNat > maxFileSize then
    sv.sendFileError codec d s req.fileId 4085 (str "File too large (max 100 MB)")
  else
    let metadata : FileMetadata :=
      { fileId := req.fileId
        filename := req.filename
        fileSize := req.fileSize.toNat
        mimeType := req.mimeType
        senderId := x.userId
        recipientId := req.recipientId
        channelId := req.channelId }
    match FileStore.createFile sv.db metadata d.nowUnix with
    | (false, db) =>
      { sv with db := db }.sendFileError codec d s req.fileId 4081
        (str "Failed to create file entry")
    | (true, db) =>
      let size := req.fileSize.toNat
      let chunkSize := if req.chunkSize > 0 then req.chunkSize.toNat else 65536
      let upload : FileUploadState := ⟨size, chunkSize, (size + chunkSize - 1) / chunkSize, 0⟩
      let sv := { sv with db := db }.modify s fun x =>
        { x with activeUploads := x.activeUploads.insert req.fileId upload }
      sv.sendFileProgress codec d s req.fileId 0 size "uploading"

/-- The chunks that are there, one after the other. -/
def assembledFile (db : Database) (fileId : Str) (totalChunks : ℕ) : Bytes :=
  (List.range totalChunks).flatMap fun i =>
    (FileStore.getChunk db fileId (UInt32.ofNat i)).getD []

/-- The last chunk was stored: the file is scanned and marked complete. -/
def finishUpload (fileId : Str) (upload : FileUploadState) : Server :=
  let eraseUpload (sv : Server) := sv.modify s fun x =>
    { x with activeUploads := x.activeUploads.erase fileId }
  let result := VirusScannerManager.scan (assembledFile sv.db fileId upload.totalChunks)
  if VirusScannerManager.isEnabled && !result.error && !result.clean then
    let sv := { sv with db := FileStore.deleteFile sv.db fileId }
    eraseUpload
      (sv.sendFileError codec d s fileId 4090 (str "Threat detected: " ++ result.virusName))
  else
    let sv := { sv with db := FileStore.markComplete sv.db fileId .null }
    eraseUpload (sv.sendEnvelope d s .fileComplete
      (codec.fileComplete.serialize ⟨fileId, upload.bytesReceived⟩))

def handleFileUpload (chunk : FileUploadChunk) : Server :=
  match sv.allowMessage d s x with
  | (false, sv) => sv.sendFileError codec d s chunk.fileId 4290 (str "Rate limit exceeded")
  | (true, sv) =>
    match x.activeUploads.lookup chunk.fileId with
    | none =>
      sv.sendFileError codec d s chunk.fileId 4082
        (str "Upload not started - send FileUploadRequest first")
    | some upload =>
      if chunk.chunkIndex.toNat ≥ upload.totalChunks then
        sv.sendFileError codec d s chunk.fileId 4083 (str "Invalid chunk index")
      else
        match FileStore.storeChunk sv.db chunk.fileId chunk.chunkIndex chunk.data with
        | (false, db) =>
          { sv with db := db }.sendFileError codec d s chunk.fileId 4084
            (str "Failed to store chunk")
        | (true, db) =>
          let upload := { upload with bytesReceived := upload.bytesReceived + chunk.data.length }
          let sv := { sv with db := db }.modify s fun x =>
            { x with activeUploads := x.activeUploads.insert chunk.fileId upload }
          let sv := sv.sendFileProgress codec d s chunk.fileId upload.bytesReceived
            upload.fileSize "uploading"
          if chunk.isLast then sv.finishUpload codec d s chunk.fileId upload else sv

/-! ## Download -/

/-- 64 KB. -/
def downloadChunkSize : ℕ := 64 * 1024

/-- The loop of `handle_file_download` with `n` rounds to go, from chunk `i` on. -/
def sendChunks (fileId : Str) (fileSize totalChunks : ℕ) : ℕ → ℕ → Server → Server
  | 0, _, sv => sv
  | n + 1, i, sv =>
    match FileStore.getChunk sv.db fileId (UInt32.ofNat i) with
    | none => sv.sendFileError codec d s fileId 4084 (str "Chunk not found: " ++ toStr i)
    | some data =>
      let chunk : FileChunk := ⟨fileId, UInt32.ofNat i, data, i + 1 == totalChunks⟩
      let sv := sv.sendEnvelope d s .fileChunk (codec.fileChunk.serialize chunk)
      let sv := sv.sendFileProgress codec d s fileId ((i + 1) * downloadChunkSize) fileSize
        "downloading"
      sendChunks fileId fileSize totalChunks n (i + 1) sv

def handleFileDownload (req : FileDownloadRequest) : Server :=
  match FileStore.getFile sv.db req.fileId with
  | none => sv.sendFileError codec d s req.fileId 4083 (str "File not found")
  | some metadata =>
    let totalChunks := (metadata.fileSize + downloadChunkSize - 1) / downloadChunkSize
    let first := req.chunkIndex.toNat
    sendChunks codec d s req.fileId metadata.fileSize totalChunks (totalChunks - first) first sv

end Server

end Ircord

import IrcordServer.Net.FileMessages
import IrcordServer.TypedFields

/-!
# Requests and chunks in `MT_FILE_UPLOAD`

The payload of `MT_FILE_UPLOAD` is a `FileUploadRequest` or a `FileUploadChunk`, and nothing says
which.  The fields that they have in common have different wire types, but for the file id, so that
a request has no data when it is read as a chunk.
-/

open Protobuf

namespace Ircord

/-- The strings of the request are UTF-8, as protobuf strings have to be. -/
structure FileUploadRequest.IsText (req : FileUploadRequest) : Prop where
  fileId : isUtf8 req.fileId = true
  filename : isUtf8 req.filename = true
  mimeType : isUtf8 req.mimeType = true
  recipientId : isUtf8 req.recipientId = true
  channelId : isUtf8 req.channelId = true

/-- The request with all fields at their defaults. -/
def FileUploadRequest.unset : FileUploadRequest := ⟨[], [], 0, [], [], [], 0⟩

/-- A `FileUploadChunk` with the field `checksum`, which clients may set and the server does not
read. -/
structure CheckedChunk extends FileUploadChunk where
  checksum : Bytes
  deriving DecidableEq

def CheckedChunk.wire : Wire CheckedChunk := .ofFields
  (fun m => bytes 1 m.fileId ++ uint 2 m.chunkIndex.toNat ++ bytes 3 m.data ++ flag 4 m.isLast ++
    bytes 5 m.checksum)
  (fun fs => do
    let fileId ← getString fs 1
    return ⟨⟨fileId, .ofNat (getUint fs 2), getBytes fs 3, getBool fs 4⟩, getBytes fs 5⟩)

/-! ## Requests -/

section Requests

variable (req : FileUploadRequest)

def requestFields : List Field :=
  bytes 1 req.fileId ++ bytes 2 req.filename ++ uint 3 req.fileSize.toNat ++
    bytes 4 req.mimeType ++ bytes 5 req.recipientId ++ bytes 6 req.channelId ++
    uint 7 req.chunkSize.toNat

/-- Whichever fields are set, each is found under its number. -/
theorem getRepeatedBytes_requestFields (number : ℕ) :
    getRepeatedBytes (requestFields req) number =
      (if 1 = number then present req.fileId else []) ++
        (if 2 = number then present req.filename else []) ++
        (if 4 = number then present req.mimeType else []) ++
        (if 5 = number then present req.recipientId else []) ++
        (if 6 = number then present req.channelId else []) := by
  unfold requestFields
  simp only [getRepeatedBytes_append_uint, getRepeatedBytes_append_bytes, getRepeatedBytes_bytes]

theorem getUint_requestFields (number : ℕ) :
    getUint (requestFields req) number =
      if 7 = number then req.chunkSize.toNat else if 3 = number then req.fileSize.toNat else 0 := by
  unfold requestFields
  simp only [getUint_append_uint, getUint_append_bytes, getUint_bytes]
  split_ifs <;> omega

variable {req}

theorem valid_requestFields (hlength : (encode (requestFields req)).length < 2 ^ 64) :
    ∀ f ∈ requestFields req, Valid f := by
  have hsize : req.fileSize.toNat < 2 ^ 64 := req.fileSize.toNat_lt
  have hchunk : req.chunkSize.toNat < 2 ^ 64 := req.chunkSize.toNat_lt.trans (by norm_num)
  refine valid_append (valid_append (valid_append (valid_append (valid_append (valid_append
    (valid_bytes_of_subset hlength (by norm_num) ?_)
    (valid_bytes_of_subset hlength (by norm_num) ?_))
    (valid_uint (by norm_num) hsize))
    (valid_bytes_of_subset hlength (by norm_num) ?_))
    (valid_bytes_of_subset hlength (by norm_num) ?_))
    (valid_bytes_of_subset hlength (by norm_num) ?_))
    (valid_uint (by norm_num) hchunk)
  all_goals
    intro f hf
    simp only [requestFields, List.mem_append, hf, true_or, or_true]

/-- A request is read back as it was written. -/
theorem parse_serialize_request (htext : req.IsText)
    (hlength : (Codec.proto3.fileUploadRequest.serialize req).length < 2 ^ 64) :
    Codec.proto3.fileUploadRequest.parse (Codec.proto3.fileUploadRequest.serialize req) =
      some req := by
  have hstring {number : ℕ} {b : Bytes} (hb : isUtf8 b = true)
      (h : getRepeatedBytes (requestFields req) number = present b) :
      getString (requestFields req) number = some b := getString_of_present h hb
  have hsize : UInt64.ofNat (getUint (requestFields req) 3) = req.fileSize := by
    rw [getUint_requestFields, if_neg (by decide), if_pos rfl]
    exact UInt64.ofNat_toNat
  have hchunk : UInt32.ofNat (getUint (requestFields req) 7) = req.chunkSize := by
    rw [getUint_requestFields, if_pos rfl]
    exact UInt32.ofNat_toNat
  show (decode (encode (requestFields req))).bind _ = _
  rw [decode_encode (valid_requestFields hlength), Option.bind_some,
    hstring htext.fileId (by simp [getRepeatedBytes_requestFields]),
    hstring htext.filename (by simp [getRepeatedBytes_requestFields]),
    hstring htext.mimeType (by simp [getRepeatedBytes_requestFields]),
    hstring htext.recipientId (by simp [getRepeatedBytes_requestFields]),
    hstring htext.channelId (by simp [getRepeatedBytes_requestFields]), hsize, hchunk]
  rfl

theorem serialize_request_ne_nil (htext : req.IsText)
    (hlength : (Codec.proto3.fileUploadRequest.serialize req).length < 2 ^ 64)
    (hset : req ≠ .unset) : Codec.proto3.fileUploadRequest.serialize req ≠ [] := by
  intro hnil
  have hread := parse_serialize_request htext hlength
  rw [hnil] at hread
  exact hset (Option.some.inj hread).symm

/-- Read as a chunk, a request has no data: what it has under that number is the file size. -/
theorem parse_chunk_serialize_request (htext : req.IsText)
    (hlength : (Codec.proto3.fileUploadRequest.serialize req).length < 2 ^ 64) :
    ∃ chunk, Codec.proto3.fileUploadChunk.parse (Codec.proto3.fileUploadRequest.serialize req) =
      some chunk ∧ chunk.data = [] := by
  have hfileId : getString (requestFields req) 1 = some req.fileId :=
    getString_of_present (by simp [getRepeatedBytes_requestFields]) htext.fileId
  have hdata : getBytes (requestFields req) 3 = [] :=
    getBytes_of_present (by simp [getRepeatedBytes_requestFields, present])
  refine ⟨⟨req.fileId, .ofNat (getUint (requestFields req) 2), getBytes (requestFields req) 3,
    getBool (requestFields req) 4⟩, ?_, hdata⟩
  show (decode (encode (requestFields req))).bind _ = _
  rw [decode_encode (valid_requestFields hlength), Option.bind_some, hfileId]
  rfl

end Requests

/-! ## Chunks -/

section Chunks

variable (m : CheckedChunk)

def chunkFields : List Field :=
  bytes 1 m.fileId ++ uint 2 m.chunkIndex.toNat ++ bytes 3 m.data ++ flag 4 m.isLast ++
    bytes 5 m.checksum

theorem getRepeatedBytes_chunkFields (number : ℕ) :
    getRepeatedBytes (chunkFields m) number =
      (if 1 = number then present m.fileId else []) ++
        (if 3 = number then present m.data else []) ++
        (if 5 = number then present m.checksum else []) := by
  unfold chunkFields flag
  simp only [getRepeatedBytes_append_uint, getRepeatedBytes_append_bytes, getRepeatedBytes_bytes]

theorem getUint_chunkFields (number : ℕ) :
    getUint (chunkFields m) number =
      if 4 = number then m.isLast.toNat else if 2 = number then m.chunkIndex.toNat else 0 := by
  have hlast : (if m.isLast then 1 else 0) = m.isLast.toNat := by cases m.isLast <;> rfl
  unfold chunkFields flag
  simp only [getUint_append_uint, getUint_append_bytes, getUint_bytes, hlast]
  split_ifs <;> omega

variable {m}

theorem valid_chunkFields (hlength : (encode (chunkFields m)).length < 2 ^ 64) :
    ∀ f ∈ chunkFields m, Valid f := by
  have hindex : m.chunkIndex.toNat < 2 ^ 64 := m.chunkIndex.toNat_lt.trans (by norm_num)
  have hlast : (if m.isLast then 1 else 0) < 2 ^ 64 := by split_ifs <;> norm_num
  refine valid_append (valid_append (valid_append (valid_append
    (valid_bytes_of_subset hlength (by norm_num) ?_) (valid_uint (by norm_num) hindex))
    (valid_bytes_of_subset hlength (by norm_num) ?_)) (valid_uint (by norm_num) hlast))
    (valid_bytes_of_subset hlength (by norm_num) ?_)
  all_goals
    intro f hf
    simp only [chunkFields, List.mem_append, hf, true_or, or_true]

/-- The fields of a chunk are read back as they were written, with the checksum and without. -/
theorem parse_serialize_chunk (htext : isUtf8 m.fileId = true)
    (hlength : (CheckedChunk.wire.serialize m).length < 2 ^ 64) :
    CheckedChunk.wire.parse (CheckedChunk.wire.serialize m) = some m ∧
      Codec.proto3.fileUploadChunk.parse (CheckedChunk.wire.serialize m) =
        some m.toFileUploadChunk := by
  have hfileId : getString (chunkFields m) 1 = some m.fileId :=
    getString_of_present (by simp [getRepeatedBytes_chunkFields]) htext
  have hdata : getBytes (chunkFields m) 3 = m.data :=
    getBytes_of_present (by simp [getRepeatedBytes_chunkFields])
  have hchecksum : getBytes (chunkFields m) 5 = m.checksum :=
    getBytes_of_present (by simp [getRepeatedBytes_chunkFields])
  have hindex : UInt32.ofNat (getUint (chunkFields m) 2) = m.chunkIndex := by
    rw [getUint_chunkFields, if_neg (by decide), if_pos rfl]
    exact UInt32.ofNat_toNat
  have hlast : getBool (chunkFields m) 4 = m.isLast := by
    rw [getBool_eq, getUint_chunkFields]
    cases m.isLast <;> rfl
  have hdecode : decode (CheckedChunk.wire.serialize m) = some (chunkFields m) :=
    decode_encode (valid_chunkFields hlength)
  constructor
  · show (decode _).bind _ = _
    rw [hdecode, Option.bind_some, hfileId, hdata, hchecksum, hindex, hlast]
    rfl
  · show (decode _).bind _ = _
    rw [hdecode, Option.bind_some, hfileId, hdata, hindex, hlast]
    rfl

end Chunks

/-! ## Which handler gets the payload -/

/-- Every request that is not empty goes to `handle_file_request`, and every chunk with data to
`handle_file_upload`, as they were sent. -/
theorem upload_payload_dispatched (crypto : Crypto) (d : Draws) (sv : Server) (s : SessionId)
    (x : Session) (hstate : x.state = .established) (data : Bytes) (env : Envelope)
    (hparse : Codec.proto3.envelope.parse data = some env) (htype : env.type = .fileUpload) :
    (∀ req : FileUploadRequest, req.IsText → req ≠ .unset →
        env.payload = Codec.proto3.fileUploadRequest.serialize req →
          env.fileMessage .proto3 = some (.request req) ∧
            sv.onFrameReceived .proto3 crypto d s x data = sv.handleFileRequest .proto3 d s x req) ∧
      ∀ m : CheckedChunk, isUtf8 m.fileId = true → m.data ≠ [] →
        env.payload = CheckedChunk.wire.serialize m →
          CheckedChunk.wire.parse env.payload = some m ∧
            env.fileMessage .proto3 = some (.chunk m.toFileUploadChunk) ∧
            sv.onFrameReceived .proto3 crypto d s x data =
              sv.handleFileUpload .proto3 d s x m.toFileUploadChunk := by
  have hlength : env.payload.length < 2 ^ 64 := by
    obtain ⟨fields, hdecode, henv⟩ := Option.bind_eq_some_iff.1 hparse
    cases henv
    exact length_getBytes_lt (valid_of_decode hdecode) 4
  have hreceived : sv.onFrameReceived .proto3 crypto d s x data =
      sv.handleFileUploadPayload .proto3 d s x env := by
    unfold Server.onFrameReceived Server.handleEnvelope Server.ifAuthenticated
    rw [hparse]
    dsimp only
    rw [htype]
    exact if_pos hstate
  rw [hreceived]
  unfold Envelope.fileMessage Server.handleFileUploadPayload
  rw [htype]
  dsimp only
  constructor
  · intro req htext hset hpayload
    rw [hpayload] at hlength ⊢
    obtain ⟨chunk, hchunk, hempty⟩ := parse_chunk_serialize_request htext hlength
    rw [if_neg (by simpa using serialize_request_ne_nil htext hlength hset),
      if_neg (by simpa using serialize_request_ne_nil htext hlength hset), hchunk,
      Option.filter_some, if_neg (by simp [hempty]), parse_serialize_request htext hlength]
    exact ⟨rfl, rfl⟩
  · intro m htext hdata hpayload
    rw [hpayload] at hlength ⊢
    obtain ⟨hfull, hread⟩ := parse_serialize_chunk htext hlength
    have hset : CheckedChunk.wire.serialize m ≠ [] := by
      intro hnil
      rw [hnil] at hread
      exact hdata (congrArg FileUploadChunk.data (Option.some.inj hread)).symm
    rw [if_neg (by simpa using hset), if_neg (by simpa using hset), hread, Option.filter_some,
      if_pos (by simpa using hdata)]
    exact ⟨hfull, rfl, rfl⟩

/-! ## A file that is announced and sent -/

def announcement : FileUploadRequest := ⟨str "f", str "f.txt", 3, [], str "bob", [], 10⟩

def onlyChunk : CheckedChunk := ⟨⟨str "f", 0, [1, 2, 3], true⟩, [4]⟩

/-- The envelope with this payload. -/
def uploadEnvelope (payload : Bytes) : Envelope := ⟨0, 0, .fileUpload, payload⟩

theorem upload_payload_dispatched_file :
    (uploadEnvelope (Codec.proto3.fileUploadRequest.serialize announcement)).fileMessage .proto3 =
        some (.request announcement) ∧
      (uploadEnvelope (CheckedChunk.wire.serialize onlyChunk)).fileMessage .proto3 =
        some (.chunk onlyChunk.toFileUploadChunk) := by
  have hdispatched (payload : Bytes)
      (hparse : Codec.proto3.envelope.parse (Codec.proto3.envelope.serialize
        (uploadEnvelope payload)) = some (uploadEnvelope payload)) :=
    upload_payload_dispatched (.ofSignatures []) Event.cleanup.atZero.draws
      (.start ⟨10, 10, 10, []⟩ .empty) 0 { Session.new with state := .established } rfl _ _ hparse
      rfl
  have hrequest := (hdispatched _ (by decide +kernel)).1 announcement
    ⟨by decide, by decide, by decide, by decide, by decide⟩ (by decide) rfl
  have hchunk := (hdispatched _ (by decide +kernel)).2 onlyChunk (by decide) (by decide) rfl
  exact ⟨hrequest.1, hchunk.2.1⟩

end Ircord

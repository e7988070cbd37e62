import IrcordServer.Net.FileDownloads
import IrcordServer.Pieces

/-!
# A file that is uploaded and downloaded

A download sends as many chunks as a file of that size has in pieces of `downloadChunkSize`, while
the file is stored in the pieces that the client chose.  What arrives is the file when these are
equally many, and all were stored.
-/

open Container Pieces Run

namespace Ircord

/-- The chunks among the replies. -/
def sentChunks (replies : List FileReply) : List FileChunk :=
  replies.filterMap fun
    | .chunk chunk => some chunk
    | _ => none

/-- The chunks are the bytes, in increasing order, the last one is the only one that is flagged, and
no error is among the replies. -/
structure Carries (replies : List FileReply) (b : Bytes) : Prop where
  bytes : (sentChunks replies).flatMap FileChunk.data = b
  increasing : (sentChunks replies).Pairwise fun chunk next => chunk.chunkIndex < next.chunkIndex
  last : ∃ front last, sentChunks replies = front ++ [last] ∧ last.isLast = true ∧
    ∀ chunk ∈ front, chunk.isLast = false
  noError : ∀ fileId code message, .error fileId code message ∉ replies

namespace Server

variable {codec : Codec} {crypto : Crypto} {sv : Server} {i : Input} {db : Database}
  {fileId : Str} {c : ℕ} {b : Bytes} {stored : List UInt32}

/-! ## The replies -/

section Replies

variable {fileSize totalChunks n first : ℕ}

/-- All chunks are there: they are sent. -/
theorem sentChunks_chunkReplies (p : ℕ → Bytes) (h : ∀ j, first ≤ j → j < first + n →
      FileStore.getChunk db fileId (UInt32.ofNat j) = some (p j)) :
    sentChunks (chunkReplies db fileId fileSize totalChunks n first) =
        (List.range' first n).map
          (fun j => ⟨fileId, UInt32.ofNat j, p j, j + 1 == totalChunks⟩) ∧
      ∀ id code message,
        .error id code message ∉ chunkReplies db fileId fileSize totalChunks n first := by
  induction n generalizing first with
  | zero => exact ⟨rfl, fun _ _ _ => List.not_mem_nil⟩
  | succ n ih =>
    obtain ⟨hchunks, herror⟩ := @ih (first + 1) fun j hj hj' => h j (by omega) (by omega)
    unfold chunkReplies
    rw [h first (Nat.le_refl first) (by omega), List.range'_succ, List.map_cons, ← hchunks]
    refine ⟨rfl, fun id code message hmem => ?_⟩
    simp only [List.mem_cons, reduceCtorEq, false_or] at hmem
    exact herror id code message hmem

/-- A chunk is missing: the loop ends with an error. -/
theorem error_mem_chunkReplies {j : ℕ} (hfirst : first ≤ j) (hj : j < first + n)
    (hmissing : FileStore.getChunk db fileId (UInt32.ofNat j) = none) :
    ∃ code message,
      .error fileId code message ∈ chunkReplies db fileId fileSize totalChunks n first := by
  induction n generalizing first with
  | zero => omega
  | succ n ih =>
    unfold chunkReplies
    cases hchunk : FileStore.getChunk db fileId (UInt32.ofNat first) with
    | none => exact ⟨_, _, List.mem_singleton_self _⟩
    | some data =>
      have hne : first ≠ j := by
        rintro rfl
        rw [hmissing] at hchunk
        cases hchunk
      obtain ⟨code, message, hmem⟩ := @ih (first + 1) (by omega) (by omega)
      exact ⟨code, message, List.mem_cons_of_mem _ (List.mem_cons_of_mem _ hmem)⟩

end Replies

/-! ## A file whose chunks are pieces -/

/-- The file has the size of `b`, and its chunks are the pieces of `b` with these indices. -/
structure Holds (db : Database) (fileId : Str) (c : ℕ) (b : Bytes) (stored : List UInt32) :
    Prop where
  size : ∃ row, db.files.lookup fileId = some row ∧ row.fileSize = b.length
  chunks : ∀ index, FileStore.getChunk db fileId index =
    if index ∈ stored then some (piece c b index.toNat) else none
  indices : ∀ index ∈ stored, index.toNat < count c b.length

theorem toNat_ofNat_of_lt {j n : ℕ} (hj : j < n) (hn : n ≤ maxFileSize) :
    (UInt32.ofNat j).toNat = j :=
  UInt32.toNat_ofNat_of_lt' (Nat.lt_trans (Nat.lt_of_lt_of_le hj hn) (by decide))

theorem downloadChunks_le (hmax : b.length ≤ maxFileSize) :
    downloadChunks b.length ≤ maxFileSize :=
  Nat.le_trans (count_le (show 0 < downloadChunkSize by decide)) hmax

theorem downloadReplies_of_holds (h : Holds db fileId c b stored) :
    downloadReplies db ⟨fileId, 0⟩ = chunkReplies db fileId b.length
      (downloadChunks b.length) (downloadChunks b.length) 0 := by
  obtain ⟨row, hrow, hsize⟩ := h.size
  have hget : FileStore.getFile db fileId = some row := hrow
  unfold downloadReplies
  rw [hget, ← hsize]
  rfl

/-- The chunks that a download asks for were stored. -/
theorem sentChunks_of_holds (h : Holds db fileId c b stored) (hmax : b.length ≤ maxFileSize)
    (hmem : ∀ j < downloadChunks b.length, UInt32.ofNat j ∈ stored) :
    sentChunks (downloadReplies db ⟨fileId, 0⟩) = (List.range (downloadChunks b.length)).map
        (fun j => (⟨fileId, UInt32.ofNat j, piece c b j, j + 1 == downloadChunks b.length⟩ :
          FileChunk)) ∧
      ∀ id code message, .error id code message ∉ downloadReplies db ⟨fileId, 0⟩ := by
  rw [downloadReplies_of_holds h, List.range_eq_range']
  refine sentChunks_chunkReplies (piece c b) fun j _ hj => ?_
  have hj' : j < downloadChunks b.length := by omega
  rw [h.chunks, if_pos (hmem j hj'), toNat_ofNat_of_lt hj' (downloadChunks_le hmax)]

/-- One of them was not stored. -/
theorem error_of_holds (h : Holds db fileId c b stored) {j : ℕ}
    (hj : j < downloadChunks b.length) (hmissing : UInt32.ofNat j ∉ stored) :
    ∃ code message, .error fileId code message ∈ downloadReplies db ⟨fileId, 0⟩ := by
  have hnone : FileStore.getChunk db fileId (UInt32.ofNat j) = none := by
    rw [h.chunks, if_neg hmissing]
  rw [downloadReplies_of_holds h]
  exact error_mem_chunkReplies (Nat.zero_le j) (by rwa [Nat.zero_add]) hnone

/-- The download of such a file. -/
theorem carries_iff (h : Holds db fileId c b stored) (hc : 0 < c) (hpos : 0 < b.length)
    (hmax : b.length ≤ maxFileSize) :
    Carries (downloadReplies db ⟨fileId, 0⟩) b ↔
      count c b.length = downloadChunks b.length ∧
        ∀ j < count c b.length, UInt32.ofNat j ∈ stored := by
  have hsmall := downloadChunks_le hmax
  obtain ⟨last, hlast⟩ : ∃ last, downloadChunks b.length = last + 1 :=
    Nat.exists_eq_succ_of_ne_zero
      (Nat.ne_of_gt (count_pos (show 0 < downloadChunkSize by decide) hpos))
  constructor
  · rintro ⟨hbytes, -, -, herror⟩
    have hmem : ∀ j < downloadChunks b.length, UInt32.ofNat j ∈ stored := by
      intro j hj
      by_contra hmissing
      obtain ⟨code, message, hmem⟩ := error_of_holds h hj hmissing
      exact herror fileId code message hmem
    -- the last of them is a piece, so there are not more of them than pieces
    have hle : downloadChunks b.length ≤ count c b.length := by
      have hlt : last < downloadChunks b.length := by omega
      have hindex := h.indices _ (hmem last hlt)
      rw [toNat_ofNat_of_lt hlt hsmall] at hindex
      omega
    have hge : count c b.length ≤ downloadChunks b.length := by
      rw [(sentChunks_of_holds h hmax hmem).1, List.flatMap_map] at hbytes
      exact (flatMap_piece_eq_iff hc).1 hbytes
    have hcount := Nat.le_antisymm hge hle
    exact ⟨hcount, fun j hj => hmem j (hcount ▸ hj)⟩
  · rintro ⟨hcount, hmem⟩
    obtain ⟨hchunks, herror⟩ := sentChunks_of_holds h hmax (hcount ▸ hmem)
    refine ⟨?_, ?_, ?_, herror⟩
    · rw [hchunks, List.flatMap_map]
      exact (flatMap_piece_eq_iff hc).2 (Nat.le_of_eq hcount)
    · rw [hchunks, List.pairwise_map]
      refine List.Pairwise.imp_of_mem (fun {j k} _ hk hjk => ?_) List.pairwise_lt_range
      have hk' := List.mem_range.1 hk
      rw [UInt32.lt_iff_toNat_lt, toNat_ofNat_of_lt hk' hsmall,
        toNat_ofNat_of_lt (Nat.lt_trans hjk hk') hsmall]
      exact hjk
    · rw [hchunks, hlast, List.range_succ, List.map_append]
      refine ⟨_, _, rfl, beq_self_eq_true _, fun chunk hchunk => ?_⟩
      obtain ⟨j, hj, rfl⟩ := List.mem_map.1 hchunk
      have := List.mem_range.1 hj
      exact beq_false_of_ne (by omega)

/-! ## The steps of an upload -/

/-- The index of the chunk that the step stores for the file. -/
def storedIndex (codec : Codec) (fileId : Str) (sv : Server) (i : Input) : Option UInt32 :=
  (sv.storedChunk codec i).bind fun p =>
    if p.1.fileId = fileId then some p.1.chunkIndex else none

/-- The step does not create the file, and a chunk that it stores for it is a piece of `b`. -/
def SendsPieces (codec : Codec) (fileId : Str) (c : ℕ) (b : Bytes) (sv : Server) (i : Input) :
    Prop :=
  (∀ req ∈ sv.createdFile codec i, req.fileId ≠ fileId) ∧
    ∀ p ∈ sv.storedChunk codec i, p.1.fileId = fileId → p.1.data = piece c b p.1.chunkIndex.toNat

instance (codec : Codec) (fileId : Str) (c : ℕ) (b : Bytes) (sv : Server) (i : Input) :
    Decidable (SendsPieces codec fileId c b sv i) :=
  inferInstanceAs (Decidable (_ ∧ _))

/-- A file that was just created. -/
theorem holds_created {req : FileUploadRequest} (h : sv.createdFile codec i = some req)
    (hsize : req.fileSize.toNat = b.length) :
    Holds (step codec crypto sv i).db req.fileId c b [] := by
  rcases fileStep codec crypto sv i with ⟨hnone, -⟩ | ⟨hnone, -⟩ |
    ⟨req', row, hcreated, -, hnew, hrow, -, hfiles, hchunks⟩ | ⟨-, -, hnone, -⟩
  · rw [hnone] at h
    cases h
  · rw [hnone] at h
    cases h
  · cases hcreated.symm.trans h
    refine ⟨⟨row, ?_, hrow.trans hsize⟩, fun index => ?_, fun _ h => absurd h List.not_mem_nil⟩
    · rw [hfiles, UnorderedMap.lookup_insert_ite, if_pos rfl]
    · rw [FileStore.getChunk_congr hchunks, FileStore.getChunk_of_notMem hnew,
        if_neg List.not_mem_nil]
  · rw [hnone] at h
    cases h

/-- A step that does not create the file, and leaves it there. -/
theorem holds_step (h : Holds sv.db fileId c b stored) (hc : 0 < c)
    (hsends : SendsPieces codec fileId c b sv i)
    (hthere : fileId ∈ (step codec crypto sv i).db.files) :
    Holds (step codec crypto sv i).db fileId c b
      (stored ++ (storedIndex codec fileId sv i).toList) := by
  obtain ⟨row, hrow, hsize⟩ := h.size
  have hnothing (hstored : sv.storedChunk codec i = none) :
      stored ++ (storedIndex codec fileId sv i).toList = stored := by
    rw [storedIndex, hstored]
    exact List.append_nil stored
  rcases fileStep codec crypto sv i with ⟨-, hstored, hfiles, hchunks⟩ |
    ⟨-, hstored, hfiles, hchunks⟩ | ⟨req, row', hcreated, hstored, -, -, -, hfiles, hchunks⟩ |
    ⟨chunk, upload, -, hstored, hdata, hfiles, hchunks⟩
  · rw [hnothing hstored]
    exact ⟨⟨row, by rw [hfiles]; exact hrow, hsize⟩,
      fun index => (FileStore.getChunk_congr hchunks index).trans (h.chunks index), h.indices⟩
  · rw [hnothing hstored]
    rw [hfiles] at hthere
    refine ⟨⟨row, ?_, hsize⟩, fun index => ?_, h.indices⟩
    · obtain ⟨row', hrow'⟩ := UnorderedMap.mem_iff_lookup.1 hthere
      rw [hfiles, hrow']
      rw [FileStore.lookup_files_cleanupExpired] at hrow'
      exact ((Option.filter_eq_some_iff.1 hrow').1.symm.trans hrow)
    · rw [FileStore.getChunk_congr hchunks, FileStore.getChunk_cleanupExpired hthere]
      exact h.chunks index
  · rw [hnothing hstored]
    refine ⟨⟨row, ?_, hsize⟩, fun index => ?_, h.indices⟩
    · rw [hfiles, UnorderedMap.lookup_insert_ite, if_neg (hsends.1 req hcreated).symm]
      exact hrow
    · exact (FileStore.getChunk_congr hchunks index).trans (h.chunks index)
  · have hindex : storedIndex codec fileId sv i =
        if chunk.fileId = fileId then some chunk.chunkIndex else none := by
      rw [storedIndex, hstored]
      rfl
    have hsame : ∃ row', (step codec crypto sv i).db.files.lookup fileId = some row' ∧
        row'.fileSize = b.length := by
      rw [hfiles, hrow]
      split_ifs
      · exact ⟨_, rfl, hsize⟩
      · exact ⟨_, rfl, hsize⟩
    rw [hindex]
    by_cases hid : chunk.fileId = fileId
    · subst hid
      have hpiece := hsends.2 _ hstored rfl
      rw [if_pos rfl, Option.toList_some]
      refine ⟨hsame, fun index => ?_, fun index hmem => ?_⟩
      · rw [FileStore.getChunk_insert hchunks, h.chunks]
        by_cases hnew : index = chunk.chunkIndex
        · rw [if_pos ⟨rfl, hnew⟩, if_pos (by simp [hnew]), hnew, ← hpiece]
        · rw [if_neg fun h => hnew h.2]
          simp [hnew]
      · rcases List.mem_append.1 hmem with hmem | hmem
        · exact h.indices index hmem
        · rw [List.mem_singleton.1 hmem]
          exact lt_count_of_piece_ne_nil hc (hpiece ▸ hdata)
    · rw [if_neg hid, Option.toList_none, List.append_nil]
      refine ⟨hsame, fun index => ?_, h.indices⟩
      rw [FileStore.getChunk_insert hchunks, if_neg fun h => hid h.1.symm]
      exact h.chunks index

/-! ## A whole upload -/

/-- A step creates the file, with the size of `b`.  What is stored for it in the steps after that
are the pieces of `b` with the length that was announced; other inputs come in between.  The file is
there at the end. -/
structure Uploads (codec : Codec) (crypto : Crypto) (sv : Server) (i : Input) (is : List Input)
    (req : FileUploadRequest) (b : Bytes) : Prop where
  created : sv.createdFile codec i = some req
  size : req.fileSize.toNat = b.length
  chunkSize : 0 < req.chunkSize.toNat
  pieces : AllSteps (step codec crypto) (SendsPieces codec req.fileId req.chunkSize.toNat b)
    (step codec crypto sv i) is
  there : req.fileId ∈ (final (step codec crypto) sv (i :: is)).db.files

theorem mem_files_of_final {is : List Input}
    (hsends : AllSteps (step codec crypto) (SendsPieces codec fileId c b) sv is)
    (h : fileId ∈ (final (step codec crypto) sv is).db.files) : fileId ∈ sv.db.files := by
  induction is generalizing sv with
  | nil => exact h
  | cons i is ih => exact mem_files_of_step hsends.1.1 (ih hsends.2 h)

theorem holds_final {is : List Input} (h : Holds sv.db fileId c b stored) (hc : 0 < c)
    (hsends : AllSteps (step codec crypto) (SendsPieces codec fileId c b) sv is)
    (hthere : fileId ∈ (final (step codec crypto) sv is).db.files) :
    Holds (final (step codec crypto) sv is).db fileId c b
      (stored ++ observe (step codec crypto) (storedIndex codec fileId) sv is) := by
  induction is generalizing sv stored with
  | nil =>
    rw [observe, List.append_nil]
    exact h
  | cons i is ih =>
    rw [observe, ← List.append_assoc]
    exact ih (holds_step h hc hsends.1 (mem_files_of_final hsends.2 hthere)) hsends.2 hthere

/-- What comes back is what was sent, when the file has as many chunks for the download as for the
upload, and each was stored. -/
theorem upload_download_iff (codec : Codec) (crypto : Crypto) (sv : Server) (i : Input)
    (is : List Input) (req : FileUploadRequest) (b : Bytes)
    (h : Uploads codec crypto sv i is req b) :
    Carries (downloadReplies (final (step codec crypto) sv (i :: is)).db ⟨req.fileId, 0⟩) b ↔
      count req.chunkSize.toNat b.length = downloadChunks b.length ∧
        ∀ j < count req.chunkSize.toNat b.length,
          UInt32.ofNat j ∈ observe (step codec crypto) (storedIndex codec req.fileId)
            (step codec crypto sv i) is := by
  obtain ⟨hzero, hmax, -⟩ := accepts_of_createdFile h.created
  have hpos : 0 < b.length := by
    rw [← h.size]
    refine Nat.pos_of_ne_zero fun hsize => hzero ?_
    exact UInt64.toNat_inj.1 hsize
  have hholds := holds_final (holds_created h.created h.size) h.chunkSize h.pieces h.there
  exact carries_iff hholds h.chunkSize hpos (h.size ▸ hmax)

/-! ## Two uploads -/

/-- The server that has read the first frames of a client: `alice` is logged in, and the header of
her request was read. -/
def beforeRequest (is : List Input) : Server :=
  final (step .proto3 aliceBobCrypto) (.start ⟨10, 10, 10, []⟩ .empty) (is.take 7)

def twentyBytes : Bytes := List.replicate 10 1 ++ List.replicate 10 2

/-- Both pieces of 10 bytes are stored, the second is flagged, and the file is complete; but 20
bytes are one chunk of a download, and the second piece does not come back. -/
theorem not_carries_wholeRun :
    let is := Archive.wholeRun.drop 8
    let request := Archive.wholeRun[7]
    let sv := final (step .proto3 aliceBobCrypto) (beforeRequest Archive.wholeRun) (request :: is)
    Uploads .proto3 aliceBobCrypto (beforeRequest Archive.wholeRun) request is
        ⟨str "f", str "f.txt", 20, [], str "bob", [], 10⟩ twentyBytes ∧
      observe (step .proto3 aliceBobCrypto) (storedIndex .proto3 (str "f"))
        (step .proto3 aliceBobCrypto (beforeRequest Archive.wholeRun) request) is = [0, 1] ∧
      (∃ row ∈ sv.db.files.lookup (str "f"), row.isComplete = true) ∧
      ¬ Carries (downloadReplies sv.db ⟨str "f", 0⟩) twentyBytes := by
  refine ⟨⟨?_, ?_, ?_, ?_, ?_⟩, ?_, ?_, fun hcarries => ?_⟩
  · decide +kernel
  · decide +kernel
  · decide +kernel
  · decide +kernel
  · decide +kernel
  · decide +kernel
  · decide +kernel
  · have hbytes := hcarries.bytes
    revert hbytes
    decide +kernel

/-- `alice` sends 10 bytes in one piece. -/
def smallRun : List Input :=
  (loginEvents 0 (str "alice") aliceSignature ++
    frameEvents 0 .fileUpload (Codec.proto3.fileUploadRequest.serialize
      ⟨str "f", str "f.txt", 10, [], str "bob", [], 10⟩) ++
    Archive.chunkEvents 0 ⟨str "f", 0, List.replicate 10 1, true⟩).map Event.atZero

theorem uploads_smallRun :
    Uploads .proto3 aliceBobCrypto (beforeRequest smallRun) smallRun[7] (smallRun.drop 8)
      ⟨str "f", str "f.txt", 10, [], str "bob", [], 10⟩ (List.replicate 10 1) := by
  refine ⟨?_, ?_, ?_, ?_, ?_⟩
  all_goals decide +kernel

/-- They come back. -/
theorem upload_download_iff_smallRun :
    Carries (downloadReplies (final (step .proto3 aliceBobCrypto) (beforeRequest smallRun)
      (smallRun[7] :: smallRun.drop 8)).db ⟨str "f", 0⟩) (List.replicate 10 1) :=
  (upload_download_iff .proto3 aliceBobCrypto (beforeRequest smallRun) smallRun[7]
    (smallRun.drop 8) ⟨str "f", str "f.txt", 10, [], str "bob", [], 10⟩ (List.replicate 10 1)
    uploads_smallRun).2 ⟨by decide, by decide +kernel⟩

end Server

end Ircord

import IrcordServer.Db.FileStore

/-!
# The files and their chunks after each operation of the file store
-/

open Container

namespace Ircord

theorem toInt32_inj {m n : UInt32} : toInt32 m = toInt32 n ↔ m = n := by
  unfold toInt32
  rw [BitVec.toInt_inj, UInt32.toBitVec_inj]

namespace FileStore

variable {db db' : Database} {fileId : Str}

/-- The bytes of all chunks of a file. -/
def storedBytes (db : Database) (fileId : Str) : ℕ :=
  UnorderedMap.total (fun k row => if k.1 = fileId then row.chunkSize else 0) db.fileChunks

/-- The bytes of the chunks of a file, without the chunk at `index`. -/
def otherBytes (db : Database) (fileId : Str) (index : UInt32) : ℕ :=
  UnorderedMap.total (fun k row => if k.1 = fileId then row.chunkSize else 0)
    (db.fileChunks.erase (fileId, toInt32 index))

/-- The bytes of the chunk at `index`, if it is there. -/
def chunkBytes (db : Database) (fileId : Str) (index : UInt32) : ℕ :=
  ((db.fileChunks.lookup (fileId, toInt32 index)).map (·.chunkSize)).getD 0

theorem storedBytes_eq_add (db : Database) (fileId : Str) (index : UInt32) :
    storedBytes db fileId = chunkBytes db fileId index + otherBytes db fileId index := by
  unfold storedBytes chunkBytes otherBytes
  rw [UnorderedMap.total_eq_add_erase _ _ (fileId, toInt32 index)]
  simp only [if_true]

theorem getReceivedBytes_eq (db : Database) (fileId : Str) :
    getReceivedBytes db fileId = storedBytes db fileId := by
  unfold getReceivedBytes storedBytes UnorderedMap.total
  induction db.fileChunks.entries with
  | nil => rfl
  | cons e entries ih =>
    rw [List.filter_cons, List.map_cons, List.sum_cons, ← ih]
    dsimp only
    by_cases h : e.1.1 = fileId
    · rw [if_pos (beq_iff_eq.2 h), if_pos h, List.map_cons, List.sum_cons]
    · rw [if_neg (mt beq_iff_eq.1 h), if_neg h, Nat.zero_add]

theorem storedBytes_congr (h : db'.fileChunks = db.fileChunks) :
    storedBytes db' fileId = storedBytes db fileId := by
  rw [storedBytes, storedBytes, h]

theorem getChunk_congr (h : db'.fileChunks = db.fileChunks) (index : UInt32) :
    getChunk db' fileId index = getChunk db fileId index := by
  rw [getChunk, getChunk, h]

/-! ## A new file -/

/-- `createFile` inserts a row for a file that was not there, or changes nothing. -/
theorem createFile_cases (db : Database) (metadata : FileMetadata) (nowUnix : ℤ) :
    metadata.fileId ∈ db.files ∧ createFile db metadata nowUnix = (false, db) ∨
      metadata.fileId ∉ db.files ∧ (createFile db metadata nowUnix).1 = true ∧
        (createFile db metadata nowUnix).2.fileChunks = db.fileChunks ∧
        ∃ row : FileRow, row.fileSize = metadata.fileSize ∧
          row.isComplete = metadata.isComplete ∧ row.senderId = metadata.senderId ∧
          (createFile db metadata nowUnix).2.files = db.files.insert metadata.fileId row := by
  unfold createFile Database.insertFile
  by_cases h : metadata.fileId ∈ db.files
  · left
    dsimp only
    rw [if_pos h]
    exact ⟨h, rfl⟩
  · right
    dsimp only
    rw [if_neg h]
    exact ⟨h, rfl, rfl, _, rfl, rfl, rfl, rfl⟩

/-- A file that is not there has no chunks. -/
theorem getChunk_of_notMem (h : fileId ∉ db.files) (index : UInt32) :
    getChunk db fileId index = none := by
  unfold getChunk
  rw [Option.map_eq_none_iff, AList.lookup_eq_none]
  exact fun hmem => h (db.chunk_references _ hmem)

theorem storedBytes_of_notMem (h : fileId ∉ db.files) : storedBytes db fileId = 0 := by
  refine UnorderedMap.total_eq_zero _ _ fun k row hrow => if_neg ?_
  rintro rfl
  exact h (db.chunk_references k (UnorderedMap.mem_iff_lookup.2 ⟨row, hrow⟩))

/-! ## A chunk -/

/-- `storeChunk` puts a vector with a buffer in for a file that is there, or changes nothing. -/
theorem storeVector_cases (db : Database) (fileId : Str) (index : UInt32) (data : ByteVector) :
    storeChunk db fileId index data = (false, db) ∨
      data.hasBuffer = true ∧ fileId ∈ db.files ∧ (storeChunk db fileId index data).1 = true ∧
        (storeChunk db fileId index data).2.files = db.files ∧
        (storeChunk db fileId index data).2.fileChunks =
          db.fileChunks.insert (fileId, toInt32 index) ⟨data.bytes, data.bytes.length⟩ := by
  unfold storeChunk Database.replaceChunk ByteVector.bind
  by_cases hbuffer : data.hasBuffer = true
  · rw [if_pos hbuffer]
    dsimp only
    by_cases hfile : fileId ∈ db.files
    · right
      rw [dif_pos hfile]
      exact ⟨hbuffer, hfile, rfl, rfl, rfl⟩
    · left
      rw [dif_neg hfile]
  · left
    rw [if_neg hbuffer]

/-- A vector with a buffer for a file that is there is stored, any other is not. -/
theorem storeVector_fst (db : Database) (fileId : Str) (index : UInt32) (data : ByteVector) :
    (storeChunk db fileId index data).1 = (decide (fileId ∈ db.files) && data.hasBuffer) := by
  unfold storeChunk Database.replaceChunk ByteVector.bind
  cases data.hasBuffer with
  | false => simp
  | true =>
    by_cases hfile : fileId ∈ db.files
    · simp [hfile]
    · simp [hfile]

/-- `storeChunk` puts a chunk with data in for a file that is there, or changes nothing. -/
theorem storeChunk_cases (db : Database) (fileId : Str) (index : UInt32) (data : Bytes) :
    storeChunk db fileId index data = (false, db) ∨
      data ≠ [] ∧ fileId ∈ db.files ∧ (storeChunk db fileId index data).1 = true ∧
        (storeChunk db fileId index data).2.files = db.files ∧
        (storeChunk db fileId index data).2.fileChunks =
          db.fileChunks.insert (fileId, toInt32 index) ⟨data, data.length⟩ := by
  rcases storeVector_cases db fileId index data with e | ⟨hbuffer, hstored⟩
  · exact Or.inl e
  · exact Or.inr ⟨by simpa using hbuffer, hstored⟩

section Stored

variable {index : UInt32} {data : Bytes}

theorem getChunk_insert
    (h : db'.fileChunks = db.fileChunks.insert (fileId, toInt32 index) ⟨data, data.length⟩)
    (id : Str) (i : UInt32) :
    getChunk db' id i = if id = fileId ∧ i = index then some data else getChunk db id i := by
  unfold getChunk
  rw [h, UnorderedMap.lookup_insert_ite]
  simp only [Prod.mk.injEq, toInt32_inj]
  split_ifs <;> rfl

theorem storedBytes_insert
    (h : db'.fileChunks = db.fileChunks.insert (fileId, toInt32 index) ⟨data, data.length⟩) :
    storedBytes db' fileId = data.length + otherBytes db fileId index := by
  unfold storedBytes otherBytes
  rw [h, UnorderedMap.total_insert, if_pos rfl]

theorem storedBytes_insert_of_ne {id : Str} (hid : id ≠ fileId)
    (h : db'.fileChunks = db.fileChunks.insert (fileId, toInt32 index) ⟨data, data.length⟩) :
    storedBytes db' id = storedBytes db id := by
  unfold storedBytes
  have hzero : ∀ row : FileChunkRow,
      (if fileId = id then row.chunkSize else 0) = 0 := fun row => if_neg hid.symm
  rw [h, UnorderedMap.total_insert, UnorderedMap.total_erase _ _ hzero, if_neg hid.symm,
    Nat.zero_add]

end Stored

/-! ## The end of an upload, and the cleanup -/

theorem fileChunks_updateFile (f : FileRow → FileRow) :
    (db.updateFile fileId f).fileChunks = db.fileChunks := by
  unfold Database.updateFile
  split <;> rfl

theorem lookup_files_updateFile (f : FileRow → FileRow) (id : Str) :
    (db.updateFile fileId f).files.lookup id =
      if id = fileId then (db.files.lookup id).map f else db.files.lookup id := by
  unfold Database.updateFile
  split
  · rename_i hnone
    split_ifs with hid
    · rw [hid, hnone]
      rfl
    · rfl
  · rename_i row hrow
    refine (UnorderedMap.lookup_insert_ite _ _ _ _).trans ?_
    split_ifs with hid
    · rw [hid, hrow]
      rfl
    · rfl

@[simp] theorem fileChunks_markComplete (checksum : ByteVector) :
    (markComplete db fileId checksum).fileChunks = db.fileChunks :=
  fileChunks_updateFile _

theorem lookup_files_markComplete (checksum : ByteVector) (id : Str) :
    (markComplete db fileId checksum).files.lookup id =
      if id = fileId then (db.files.lookup id).map fun row =>
        { row with isComplete := true, fileChecksum := checksum.bind }
      else db.files.lookup id :=
  lookup_files_updateFile _ id

theorem lookup_files_cleanupExpired (nowUnix : ℤ) (id : Str) :
    (cleanupExpired db nowUnix).files.lookup id =
      (db.files.lookup id).filter fun row => decide (nowUnix < row.expiresAt) := by
  refine (UnorderedMap.lookup_filter _ _ _).trans ?_
  refine congrArg (fun p => Option.filter p (db.files.lookup id)) (funext fun row => ?_)
  by_cases h : row.expiresAt ≤ nowUnix
  · simp [h]
  · simp [h, Int.not_le.1 h]

/-- The chunks of a file that is not deleted stay. -/
theorem getChunk_cleanupExpired {nowUnix : ℤ} (h : fileId ∈ (cleanupExpired db nowUnix).files)
    (index : UInt32) :
    getChunk (cleanupExpired db nowUnix) fileId index = getChunk db fileId index := by
  unfold getChunk
  have hlookup : (cleanupExpired db nowUnix).fileChunks.lookup (fileId, toInt32 index) =
      (db.fileChunks.lookup (fileId, toInt32 index)).filter fun _ =>
        decide ((fileId, toInt32 index).1 ∈ (cleanupExpired db nowUnix).files) :=
    UnorderedMap.lookup_filter _ _ _
  rw [hlookup]
  have hkept : decide ((fileId, toInt32 index).1 ∈ (cleanupExpired db nowUnix).files) = true :=
    decide_eq_true h
  cases db.fileChunks.lookup (fileId, toInt32 index) with
  | none => rfl
  | some row => rw [Option.filter_some, hkept]; rfl

theorem storedBytes_cleanupExpired {nowUnix : ℤ} (h : fileId ∈ (cleanupExpired db nowUnix).files) :
    storedBytes (cleanupExpired db nowUnix) fileId = storedBytes db fileId := by
  have hgone : ∀ (k : Str × ℤ) (row : FileChunkRow), db.fileChunks.lookup k = some row →
      decide (k.1 ∈ (cleanupExpired db nowUnix).files) = false →
      (if k.1 = fileId then row.chunkSize else 0) = 0 := by
    intro k row _ hgone
    rw [if_neg]
    rintro rfl
    exact of_decide_eq_false hgone h
  exact UnorderedMap.total_filter _ _ _ hgone

end FileStore

end Ircord

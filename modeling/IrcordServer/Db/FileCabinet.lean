import Mathlib.Data.Set.Card
import IrcordServer.Cabinet
import IrcordServer.Db.EncryptedChunks
import IrcordServer.Db.MissingChunks
import IrcordServer.Query

/-!
# The file store as a cabinet

The file store is a cabinet whose folders are the files, with their rows as covers and their chunks
as pages: every call does to the tables what the operation of the cabinet does, returns what the
cabinet says, and every query can be answered from the cabinet.
-/

open Container Filing Run

namespace Ircord

/-- The fields of `FileMetadata` that `listFiles` reads. -/
structure ListedFile where
  fileId : Str
  filename : Str
  fileSize : ℕ
  mimeType : Str
  senderId : Str
  recipientId : Str
  channelId : Str
  uploadedAt : ℤ
  expiresAt : ℤ
  isComplete : Bool
  deriving DecidableEq

namespace FileStore

/-! ## Listing -/

def listedFile (r : Str × FileRow) : ListedFile where
  fileId := r.1
  filename := r.2.filename
  fileSize := r.2.fileSize
  mimeType := r.2.mimeType
  senderId := r.2.senderId
  recipientId := r.2.recipientId
  channelId := r.2.channelId
  uploadedAt := r.2.uploadedAt
  expiresAt := r.2.expiresAt
  isComplete := r.2.isComplete

/-- The condition of `listFiles`; an empty recipient or channel is no condition. -/
def isListed (recipientId channelId : Str) (nowUnix : ℤ) (r : Str × FileRow) : Bool :=
  (recipientId.isEmpty || r.2.recipientId == recipientId) &&
    (channelId.isEmpty || r.2.channelId == channelId) && decide (r.2.expiresAt > nowUnix)

/-- `ORDER BY uploaded_at DESC`. -/
def isNoOlder (r r' : Str × FileRow) : Bool := decide (r'.2.uploadedAt ≤ r.2.uploadedAt)

/-- The rows of the files table. -/
def fileRows (db : Database) : List (Str × FileRow) := db.files.entries.map fun e => (e.1, e.2)

def listFiles (db : Database) (recipientId channelId : Str) (limit nowUnix : ℤ) :
    List ListedFile :=
  (Sql.select (isListed recipientId channelId nowUnix) isNoOlder limit (fileRows db)).map listedFile

/-- `getChanges()` after the statement of `cleanupExpired`. -/
def removedByCleanup (db : Database) (nowUnix : ℤ) : ℕ :=
  db.files.entries.countP fun e => decide (e.2.expiresAt ≤ nowUnix)

theorem mem_fileRows {db : Database} {r : Str × FileRow} :
    r ∈ fileRows db ↔ db.files.lookup r.1 = some r.2 := by
  rw [← Option.mem_def, AList.mem_lookup_iff, fileRows, List.mem_map]
  constructor
  · rintro ⟨e, he, rfl⟩
    exact he
  · intro h
    exact ⟨_, h, rfl⟩

theorem nodup_fileRows (db : Database) : (fileRows db).Nodup := by
  refine List.Nodup.of_map Prod.fst ?_
  rw [fileRows, List.map_map]
  exact db.files.nodupKeys

/-- The files listed are the newest that are not expired. -/
theorem firstRows_listFiles (db : Database) (recipientId channelId : Str) (limit nowUnix : ℤ) :
    Sql.FirstRows (isListed recipientId channelId nowUnix) isNoOlder limit
      {r | db.files.lookup r.1 = some r.2}
      (Sql.select (isListed recipientId channelId nowUnix) isNoOlder limit (fileRows db)) := by
  have hrows : {r | db.files.lookup r.1 = some r.2} = {r | r ∈ fileRows db} :=
    Set.ext fun r => mem_fileRows.symm
  rw [hrows]
  refine Sql.firstRows_select ?_ ?_ (nodup_fileRows db) limit
  · intro a b c hab hbc
    exact decide_eq_true ((of_decide_eq_true hbc).trans (of_decide_eq_true hab))
  · intro a b
    rcases le_total b.2.uploadedAt a.2.uploadedAt with h | h
    · rw [isNoOlder, decide_eq_true h, Bool.true_or]
    · rw [Bool.or_comm, isNoOlder, decide_eq_true h, Bool.true_or]

end FileStore

open FileStore

/-! ## The cabinet -/

/-- The files by their ids: the row of a file, and its chunks. -/
abbrev FileCabinet := Cabinet Str FileRow UInt32 Bytes

namespace FileCabinet

/-- The cabinet that the tables hold. -/
def held (db : Database) : FileCabinet := fun fileId =>
  (db.files.lookup fileId).map fun row => ⟨row, getChunk db fileId⟩

theorem cover_held (db : Database) (fileId : Str) :
    (held db).cover fileId = db.files.lookup fileId := by
  unfold held Cabinet.cover
  rw [Option.map_map]
  exact Option.map_id'

theorem page_held (db : Database) (fileId : Str) (i : UInt32) :
    (held db).page fileId i = getChunk db fileId i := by
  unfold held Cabinet.page
  dsimp only
  cases hrow : db.files.lookup fileId with
  | none => exact (getChunk_of_notMem (AList.lookup_eq_none.1 hrow) i).symm
  | some row => rfl

variable {c : FileCabinet}

/-- A chunk is put into its file, unless its vector is null. -/
def putChunk (c : FileCabinet) (fileId : Str) (index : UInt32) (data : ByteVector) : FileCabinet :=
  if data.hasBuffer then c.putPage fileId index data.bytes else c

/-- Whether a chunk can be put into its file. -/
def takes (c : FileCabinet) (fileId : Str) (data : ByteVector) : Bool :=
  (c.cover fileId).isSome && data.hasBuffer

end FileCabinet

/-- The row that `createFile` inserts. -/
def FileMetadata.newRow (metadata : FileMetadata) (nowUnix : ℤ) : FileRow where
  filename := metadata.filename
  fileSize := metadata.fileSize
  mimeType := metadata.mimeType
  senderId := metadata.senderId
  recipientId := metadata.recipientId
  channelId := metadata.channelId
  uploadedAt := if metadata.uploadedAt > 0 then metadata.uploadedAt else nowUnix
  expiresAt := if metadata.expiresAt > 0 then metadata.expiresAt else nowUnix + defaultTtlSeconds
  fileChecksum := none
  storagePath := metadata.storagePath
  isComplete := metadata.isComplete
  isEncrypted := false
  encryptedKey := none

/-- A row after `markComplete`. -/
def FileRow.completed (checksum : ByteVector) (row : FileRow) : FileRow :=
  { row with isComplete := true, fileChecksum := checksum.bind }

/-- A row after `encryptAndStoreChunk`. -/
def FileRow.encryptedWith (encryptedKey : Bytes) (row : FileRow) : FileRow :=
  { row with isEncrypted := true, encryptedKey := bindBlob encryptedKey }

/-! ## Calls -/

/-- A call that changes the tables. -/
inductive FileCall
  | createFile (metadata : FileMetadata) (nowUnix : ℤ)
  | storeChunk (fileId : Str) (index : UInt32) (data : ByteVector)
  | encryptAndStoreChunk (encryptor : Option FileEncryptor) (d : FileEncryptor.Draws)
      (fileId : Str) (plaintext : ByteVector)
  | markComplete (fileId : Str) (checksum : ByteVector)
  | deleteFile (fileId : Str)
  | cleanupExpired (nowUnix : ℤ)

/-- What a call returns. -/
inductive FileResult
  | done (ok : Bool)
  | removed (n : ℕ)

namespace FileCall

variable (sodium : Sodium)

/-- The tables after a call. -/
def step (db : Database) : FileCall → Database
  | .createFile metadata nowUnix => (FileStore.createFile db metadata nowUnix).2
  | .storeChunk fileId index data => (FileStore.storeChunk db fileId index data).2
  | .encryptAndStoreChunk encryptor d fileId plaintext =>
    (FileStore.encryptAndStoreChunk db sodium encryptor d fileId plaintext).2
  | .markComplete fileId checksum => FileStore.markComplete db fileId checksum
  | .deleteFile fileId => FileStore.deleteFile db fileId
  | .cleanupExpired nowUnix => FileStore.cleanupExpired db nowUnix

/-- The result of a call; those of `markComplete` and `deleteFile`, which cannot fail, are left
out. -/
def returned (db : Database) : FileCall → Option FileResult
  | .createFile metadata nowUnix => some (.done (FileStore.createFile db metadata nowUnix).1)
  | .storeChunk fileId index data => some (.done (FileStore.storeChunk db fileId index data).1)
  | .encryptAndStoreChunk encryptor d fileId plaintext =>
    some (.done (FileStore.encryptAndStoreChunk db sodium encryptor d fileId plaintext).1)
  | .markComplete _ _ => none
  | .deleteFile _ => none
  | .cleanupExpired nowUnix => some (.removed (removedByCleanup db nowUnix))

/-- The cabinet after a call. -/
def act (c : FileCabinet) : FileCall → FileCabinet
  | .createFile metadata nowUnix => c.addFolder metadata.fileId (metadata.newRow nowUnix)
  | .storeChunk fileId index data => c.putChunk fileId index data
  | .encryptAndStoreChunk encryptor d fileId plaintext =>
    if encryptionEnabled encryptor then
      match maybeEncrypt sodium encryptor d plaintext.bytes with
      | none => c
      | some (data, encryptedKey) =>
        if c.takes fileId data then
          (c.putChunk fileId 0 data).changeCover fileId (FileRow.encryptedWith encryptedKey)
        else c.putChunk fileId 0 data
    else c.putChunk fileId 0 plaintext
  | .markComplete fileId checksum => c.changeCover fileId (FileRow.completed checksum)
  | .deleteFile fileId => c.discard fun id _ => id == fileId
  | .cleanupExpired nowUnix => c.discard fun _ row => decide (row.expiresAt ≤ nowUnix)

end FileCall

namespace FileCabinet

variable (db : Database)

/-- Every chunk is under an index that `storeChunk` binds, and its size is the one of its data. -/
def Indexed (db : Database) : Prop :=
  ∀ k row, db.fileChunks.lookup k = some row →
    (∃ i : UInt32, k.2 = toInt32 i) ∧ row.chunkSize = row.chunkData.length

/-- Every query is answered as the cabinet says. -/
structure Answers (db : Database) (c : FileCabinet) : Prop where
  file : ∀ fileId, getFile db fileId = c.cover fileId
  chunk : ∀ fileId i, getChunk db fileId i = c.page fileId i
  has : ∀ fileId i, hasChunk db fileId i = (c.page fileId i).isSome
  missing : ∀ fileId n i, i ∈ getMissingChunks db fileId n ↔ i < n ∧ c.page fileId i = none
  ordered : ∀ fileId n, (getMissingChunks db fileId n).Pairwise (· < ·)
  received : ∀ fileId, getReceivedBytes db fileId = c.weight List.length fileId
  listed : ∀ recipientId channelId limit nowUnix, ∃ rows,
    listFiles db recipientId channelId limit nowUnix = rows.map listedFile ∧
      Sql.FirstRows (isListed recipientId channelId nowUnix) isNoOlder limit
        {r | c.cover r.1 = some r.2} rows

variable {db}

theorem Indexed.mem_chunkIndices_iff (h : Indexed db) (fileId : Str) (i : UInt32) :
    i ∈ chunkIndices db fileId ↔ hasChunk db fileId i = true := by
  rw [hasChunk, AList.lookup_isSome, mem_chunkIndices]
  constructor
  · rintro ⟨k, hk, rfl⟩
    obtain ⟨row, hrow⟩ := UnorderedMap.mem_iff_lookup.1 hk
    obtain ⟨⟨j, rfl⟩, -⟩ := h _ row hrow
    rwa [toUInt32_toInt32]
  · intro hmem
    exact ⟨toInt32 i, hmem, toUInt32_toInt32 i⟩

/-- The bytes received are those of the chunks that can be read. -/
theorem Indexed.getReceivedBytes_eq_weight (h : Indexed db) (fileId : Str) :
    getReceivedBytes db fileId = (held db).weight List.length fileId := by
  rw [getReceivedBytes_eq, storedBytes, Sql.total_eq_finsum, Cabinet.weight]
  obtain ⟨size, hsize⟩ : ∃ size : Str × ℤ → ℕ, size = fun k =>
      ((db.fileChunks.lookup k).map fun row => if k.1 = fileId then row.chunkSize else 0).getD 0 :=
    ⟨_, rfl⟩
  have hchunk : ∀ i : UInt32, (((held db).page fileId i).map List.length).getD 0 =
      size (fileId, toInt32 i) := by
    intro i
    rw [page_held, getChunk, hsize]
    dsimp only
    cases hrow : db.fileChunks.lookup (fileId, toInt32 i) with
    | none => rfl
    | some row =>
      rw [Option.map_some, Option.map_some, Option.map_some, if_pos rfl, (h _ row hrow).2]
  have hinj : Function.Injective fun i : UInt32 => (fileId, toInt32 i) :=
    fun i j e => toInt32_inj.1 (Prod.mk.inj e).2
  -- a chunk that counts is under an index
  have hsub : Function.support size ⊆ Set.range fun i : UInt32 => (fileId, toInt32 i) := by
    intro k hk
    rw [Function.mem_support, hsize] at hk
    dsimp only at hk
    cases hrow : db.fileChunks.lookup k with
    | none =>
      rw [hrow] at hk
      exact absurd rfl hk
    | some row =>
      rw [hrow, Option.map_some, Option.getD_some] at hk
      obtain ⟨i, hi⟩ := (h k row hrow).1
      have hid : k.1 = fileId := by
        by_contra hne
        exact hk (if_neg hne)
      exact ⟨i, Prod.ext hid.symm hi.symm⟩
  rw [finsum_congr hchunk, ← finsum_mem_range hinj, finsum_mem_def,
    Set.indicator_eq_self.2 hsub, hsize]

theorem Indexed.answers (h : Indexed db) : Answers db (held db) where
  file fileId := (cover_held db fileId).symm
  chunk fileId i := (page_held db fileId i).symm
  has fileId i := by rw [page_held, isSome_getChunk]
  missing fileId n i := by
    rw [mem_getMissingChunks, h.mem_chunkIndices_iff, page_held, ← isSome_getChunk,
      Option.not_isSome_iff_eq_none]
  ordered := pairwise_getMissingChunks db
  received := h.getReceivedBytes_eq_weight
  listed recipientId channelId limit nowUnix := by
    refine ⟨_, rfl, ?_⟩
    have hrows : {r : Str × FileRow | (held db).cover r.1 = some r.2} =
        {r | db.files.lookup r.1 = some r.2} :=
      Set.ext fun r => by rw [Set.mem_ofPred_eq, Set.mem_ofPred_eq, cover_held]
    rw [hrows]
    exact firstRows_listFiles db recipientId channelId limit nowUnix

theorem Indexed.congr (h : Indexed db) {db' : Database} (hchunks : db'.fileChunks = db.fileChunks) :
    Indexed db' := fun k row hrow => h k row (hchunks ▸ hrow)

theorem Indexed.storeChunk (h : Indexed db) (fileId : Str) (index : UInt32) (data : ByteVector) :
    Indexed (storeChunk db fileId index data).2 := by
  rcases storeVector_cases db fileId index data with e | ⟨-, -, -, -, hchunks⟩
  · rw [e]
    exact h
  · intro k row hrow
    rw [hchunks, UnorderedMap.lookup_insert_ite] at hrow
    split_ifs at hrow with hk
    · obtain rfl := Option.some.inj hrow
      exact ⟨⟨index, by rw [hk]⟩, rfl⟩
    · exact h k row hrow

theorem Indexed.deleteFiles (h : Indexed db) (p : Str → FileRow → Bool) :
    Indexed (db.deleteFiles p) := by
  intro k row hrow
  have hfilter : (db.deleteFiles p).fileChunks.lookup k =
      (db.fileChunks.lookup k).filter fun _ => decide (k.1 ∈ (db.deleteFiles p).files) :=
    UnorderedMap.lookup_filter _ _ _
  rw [hfilter, Option.filter_eq_some_iff] at hrow
  exact h k row hrow.1

theorem Indexed.step (h : Indexed db) (sodium : Sodium) (call : FileCall) :
    Indexed (FileCall.step sodium db call) := by
  cases call with
  | createFile metadata nowUnix =>
    rcases createFile_cases db metadata nowUnix with ⟨-, e⟩ | ⟨-, -, hchunks, -⟩
    · rw [FileCall.step, e]
      exact h
    · exact h.congr hchunks
  | storeChunk fileId index data => exact h.storeChunk fileId index data
  | encryptAndStoreChunk encryptor d fileId plaintext =>
    rw [FileCall.step, encryptAndStoreChunk]
    split_ifs
    · exact h.storeChunk fileId 0 plaintext
    · split
      · exact h
      · rename_i data encryptedKey _
        have hstored := h.storeChunk fileId 0 data
        rcases hres : FileStore.storeChunk db fileId 0 data with ⟨_ | _, db'⟩
        · rw [hres] at hstored
          exact hstored
        · rw [hres] at hstored
          exact hstored.congr (fileChunks_updateFile _)
  | markComplete fileId checksum => exact h.congr (fileChunks_updateFile _)
  | deleteFile fileId => exact h.deleteFiles _
  | cleanupExpired nowUnix => exact h.deleteFiles _

/-! ## Runs -/

end FileCabinet

end Ircord

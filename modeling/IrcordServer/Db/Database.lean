import IrcordServer.Container
import IrcordServer.Table
import IrcordServer.Text
import Mathlib.Data.Int.Notation

/-!
# The database

The tables of `Database::execute_schema` and of the `FileStore` constructor, with
`PRAGMA foreign_keys=ON`: the foreign keys are fields of `Database`, so no state violates them.  A
statement that would violate a constraint fails and changes nothing (`Except SqlError`).  A
`std::vector` bound as a blob is bound as `NULL` when its data pointer is null: when it is empty and
never had a buffer.
-/

open Container Sql

namespace Ircord

/-- A `SQLite::Exception`. -/
structure SqlError where
  what : Str
  deriving DecidableEq

structure UserRow where
  identityPub : Bytes
  passwordHash : Option Bytes
  createdAt : ℤ
  deriving DecidableEq

structure SignedPrekeyRow where
  spkPub : Bytes
  spkSig : Bytes
  uploadedAt : ℤ
  deriving DecidableEq

structure OneTimePrekeyRow where
  userId : Str
  opkPub : Bytes
  used : Bool
  deriving DecidableEq

structure OfflineMessageRow where
  recipientId : Str
  payload : Bytes
  storedAt : ℤ
  expiresAt : ℤ
  deriving DecidableEq

structure FileRow where
  filename : Str
  fileSize : ℕ
  mimeType : Str
  senderId : Str
  recipientId : Str
  channelId : Str
  uploadedAt : ℤ
  expiresAt : ℤ
  fileChecksum : Option Bytes
  storagePath : Str
  isComplete : Bool
  isEncrypted : Bool
  encryptedKey : Option Bytes
  deriving DecidableEq

structure FileChunkRow where
  chunkData : Bytes
  chunkSize : ℕ
  deriving DecidableEq

/-- The tables, each under its primary key.  A chunk is keyed by its file and by its index as an
SQL integer. -/
structure Database where
  users : UnorderedMap Str UserRow
  signedPrekeys : UnorderedMap Str SignedPrekeyRow
  oneTimePrekeys : Table OneTimePrekeyRow
  offlineMessages : Table OfflineMessageRow
  files : UnorderedMap Str FileRow
  fileChunks : UnorderedMap (Str × ℤ) FileChunkRow
  spk_references : ∀ u ∈ signedPrekeys, u ∈ users
  opk_references : ∀ r ∈ oneTimePrekeys.rows, r.2.userId ∈ users
  chunk_references : ∀ k ∈ fileChunks, k.1 ∈ files

/-- A `std::vector<uint8_t>`: its bytes, and whether it has a buffer (`data()` is not null). -/
structure ByteVector where
  bytes : Bytes
  hasBuffer : Bool
  buffer_of_bytes : bytes ≠ [] → hasBuffer = true
  deriving DecidableEq

namespace ByteVector

/-- The vector that is constructed from a range: it gets a buffer for what is in it. -/
def ofRange (b : Bytes) : ByteVector where
  bytes := b
  hasBuffer := !b.isEmpty
  buffer_of_bytes h := by simpa using h

instance : Coe Bytes ByteVector := ⟨ofRange⟩

/-- The vector of the default constructor. -/
def null : ByteVector := ⟨[], false, fun h => absurd rfl h⟩

/-- A vector with a buffer that it does not use, as after `reserve` or `clear`. -/
def cleared : ByteVector := ⟨[], true, fun h => absurd rfl h⟩

@[simp] theorem bytes_ofRange (b : Bytes) : (ofRange b).bytes = b := rfl

@[simp] theorem hasBuffer_ofRange (b : Bytes) : (ofRange b).hasBuffer = !b.isEmpty := rfl

/-- `Statement::bind` of `data()` and `size()`: SQLite takes a null pointer for `NULL`. -/
def bind (v : ByteVector) : Option Bytes := if v.hasBuffer then some v.bytes else none

end ByteVector

/-- A blob parameter that is a vector constructed from a range. -/
def bindBlob (b : Bytes) : Option Bytes := if b.isEmpty then none else some b

theorem bindBlob_of_ne_nil {b : Bytes} (h : b ≠ []) : bindBlob b = some b := by
  cases b with
  | nil => exact absurd rfl h
  | cons c b => rfl

namespace Database

/-- The tables right after `execute_schema` on a new file. -/
def empty : Database where
  users := ∅
  signedPrekeys := ∅
  oneTimePrekeys := ∅
  offlineMessages := ∅
  files := ∅
  fileChunks := ∅
  spk_references _ h := absurd h (AList.notMem_empty _)
  opk_references _ h := absurd h List.not_mem_nil
  chunk_references _ h := absurd h (AList.notMem_empty _)

variable (db : Database)

/-- A new set of users that contains the old one. -/
def withUsers (users : UnorderedMap Str UserRow) (h : ∀ u ∈ db.users, u ∈ users) : Database :=
  { db with
    users := users
    spk_references := fun u hu => h u (db.spk_references u hu)
    opk_references := fun r hr => h _ (db.opk_references r hr) }

/-- `INSERT INTO users`. -/
def insertUser (userId identityPub : Bytes) (createdAt : ℤ) : Except SqlError Database :=
  match bindBlob identityPub with
  | none => .error ⟨str "NOT NULL constraint failed: users.identity_pub"⟩
  | some key =>
    if userId ∈ db.users then .error ⟨str "UNIQUE constraint failed: users.user_id"⟩
    else .ok <| db.withUsers (db.users.insert userId ⟨key, none, createdAt⟩) fun _ hu =>
      UnorderedMap.mem_insert_iff.2 (Or.inr hu)

/-- `UPDATE users SET … WHERE user_id = ?`. -/
def updateUser (userId : Str) (f : UserRow → UserRow) : Database :=
  match db.users.lookup userId with
  | none => db
  | some row => db.withUsers (db.users.insert userId (f row)) fun _ hu =>
      UnorderedMap.mem_insert_iff.2 (Or.inr hu)

/-- `INSERT OR REPLACE INTO signed_prekeys`. -/
def replaceSignedPrekey (userId : Str) (spkPub spkSig : Bytes) (uploadedAt : ℤ) :
    Except SqlError Database :=
  match bindBlob spkPub, bindBlob spkSig with
  | some pub, some sig =>
    if hu : userId ∈ db.users then
      .ok { db with
        signedPrekeys := db.signedPrekeys.insert userId ⟨pub, sig, uploadedAt⟩
        spk_references := fun u h => by
          rcases UnorderedMap.mem_insert_iff.1 h with rfl | h
          · exact hu
          · exact db.spk_references u h }
    else .error ⟨str "FOREIGN KEY constraint failed"⟩
  | none, _ => .error ⟨str "NOT NULL constraint failed: signed_prekeys.spk_pub"⟩
  | _, none => .error ⟨str "NOT NULL constraint failed: signed_prekeys.spk_sig"⟩

/-- `DELETE FROM signed_prekeys`, the rows that satisfy `p`. -/
def deleteSignedPrekeys (p : Str → Bool) : Database :=
  { db with
    signedPrekeys := UnorderedMap.filter (fun u _ => !p u) db.signedPrekeys
    spk_references := fun u h => by
      obtain ⟨row, hrow⟩ := UnorderedMap.mem_iff_lookup.1 h
      rw [UnorderedMap.lookup_filter, Option.filter_eq_some_iff] at hrow
      exact db.spk_references u (UnorderedMap.mem_iff_lookup.2 ⟨row, hrow.1⟩) }

/-- `INSERT INTO one_time_prekeys`. -/
def insertOneTimePrekey (userId opkPub : Bytes) : Except SqlError Database :=
  match bindBlob opkPub with
  | none => .error ⟨str "NOT NULL constraint failed: one_time_prekeys.opk_pub"⟩
  | some opk =>
    if hu : userId ∈ db.users then
      .ok { db with
        oneTimePrekeys := db.oneTimePrekeys.insert ⟨userId, opk, false⟩
        opk_references := fun r h => by
          rcases Table.mem_insert.1 h with h | rfl
          · exact db.opk_references r h
          · exact hu }
    else .error ⟨str "FOREIGN KEY constraint failed"⟩

/-- `DELETE FROM one_time_prekeys`, the rows that satisfy `p`. -/
def deleteOneTimePrekeys (p : OneTimePrekeyRow → Bool) : Database :=
  { db with
    oneTimePrekeys := db.oneTimePrekeys.retain fun r => !p r.2
    opk_references := fun r h => db.opk_references r (Table.mem_retain.1 h).1 }

/-- `UPDATE one_time_prekeys SET used = 1 WHERE id = ?`. -/
def markOneTimePrekeyUsed (id : ℕ) : Database :=
  { db with
    oneTimePrekeys := db.oneTimePrekeys.update id fun r => { r with used := true }
    opk_references := fun r h => by
      obtain ⟨y, hy, -, e | e⟩ := Table.mem_update h <;> rw [e]
      · exact db.opk_references y hy
      · exact db.opk_references y hy }

/-- `DELETE FROM users`, all rows: fails while a pre-key refers to one of them. -/
def deleteAllUsers : Except SqlError Database :=
  if h : db.signedPrekeys.keys = [] ∧ db.oneTimePrekeys.rows = [] then
    .ok { db with
      users := ∅
      spk_references := fun _ hu => absurd (h.1 ▸ AList.mem_keys.1 hu) List.not_mem_nil
      opk_references := fun _ hr => absurd (h.2 ▸ hr) List.not_mem_nil }
  else .error ⟨str "FOREIGN KEY constraint failed"⟩

/-- `INSERT INTO files`. -/
def insertFile (fileId : Str) (row : FileRow) : Except SqlError Database :=
  if fileId ∈ db.files then .error ⟨str "UNIQUE constraint failed: files.file_id"⟩
  else .ok { db with
    files := db.files.insert fileId row
    chunk_references := fun k hk =>
      UnorderedMap.mem_insert_iff.2 (Or.inr (db.chunk_references k hk)) }

/-- `UPDATE files SET … WHERE file_id = ?`. -/
def updateFile (fileId : Str) (f : FileRow → FileRow) : Database :=
  match db.files.lookup fileId with
  | none => db
  | some row => { db with
    files := db.files.insert fileId (f row)
    chunk_references := fun k hk =>
      UnorderedMap.mem_insert_iff.2 (Or.inr (db.chunk_references k hk)) }

/-- `DELETE FROM files`, the rows that satisfy `p`; the chunks of a deleted file go with it
(`ON DELETE CASCADE`). -/
def deleteFiles (p : Str → FileRow → Bool) : Database :=
  let files := UnorderedMap.filter (fun k row => !p k row) db.files
  { db with
    files := files
    fileChunks := UnorderedMap.filter (fun k _ => decide (k.1 ∈ files)) db.fileChunks
    chunk_references := fun k hk => by
      obtain ⟨row, hrow⟩ := UnorderedMap.mem_iff_lookup.1 hk
      rw [UnorderedMap.lookup_filter, Option.filter_eq_some_iff] at hrow
      exact of_decide_eq_true hrow.2 }

/-- `INSERT OR REPLACE INTO file_chunks`. -/
def replaceChunk (fileId : Str) (index : ℤ) (data : ByteVector) : Except SqlError Database :=
  match data.bind with
  | none => .error ⟨str "NOT NULL constraint failed: file_chunks.chunk_data"⟩
  | some blob =>
    if hf : fileId ∈ db.files then
      .ok { db with
        fileChunks := db.fileChunks.insert (fileId, index) ⟨blob, blob.length⟩
        chunk_references := fun k h => by
          rcases UnorderedMap.mem_insert_iff.1 h with rfl | h
          · exact hf
          · exact db.chunk_references k h }
    else .error ⟨str "FOREIGN KEY constraint failed"⟩

/-! ## The users table after each statement -/

theorem lookup_users_insertUser {userId identityPub : Bytes} {createdAt : ℤ} {db' : Database}
    (h : db.insertUser userId identityPub createdAt = .ok db') (u : Str) :
    db'.users.lookup u =
      if u = userId then some ⟨identityPub, none, createdAt⟩ else db.users.lookup u := by
  unfold insertUser bindBlob at h
  split_ifs at h with hb hu
  all_goals simp only at h
  cases h
  exact UnorderedMap.lookup_insert_ite _ _ _ _

theorem lookup_users_updateUser (userId : Str) (f : UserRow → UserRow) (u : Str) :
    (db.updateUser userId f).users.lookup u =
      if u = userId then (db.users.lookup u).map f else db.users.lookup u := by
  unfold updateUser
  split
  · rename_i hnone
    split_ifs with hu
    · rw [hu, hnone, Option.map_none]
    · rfl
  · rename_i row hrow
    show (db.users.insert userId (f row)).lookup u = _
    rw [UnorderedMap.lookup_insert_ite]
    split_ifs with hu
    · rw [hu, hrow, Option.map_some]
    · rfl

theorem users_replaceSignedPrekey {userId spkPub spkSig : Bytes} {uploadedAt : ℤ} {db' : Database}
    (h : db.replaceSignedPrekey userId spkPub spkSig uploadedAt = .ok db') :
    db'.users = db.users := by
  unfold replaceSignedPrekey at h
  split at h
  · split_ifs at h
    cases h
    rfl
  all_goals cases h

theorem users_insertOneTimePrekey {userId opkPub : Bytes} {db' : Database}
    (h : db.insertOneTimePrekey userId opkPub = .ok db') : db'.users = db.users := by
  unfold insertOneTimePrekey at h
  split at h
  · cases h
  · split_ifs at h
    cases h
    rfl

@[simp] theorem users_deleteOneTimePrekeys (p : OneTimePrekeyRow → Bool) :
    (db.deleteOneTimePrekeys p).users = db.users := rfl

end Database

end Ircord

import IrcordServer.Crypto.FileEncryptor
import IrcordServer.Db.Database

/-!
# The file store

The operations of `db/file_store.cpp` that sessions and the cleanup timer use, and the encryption
that the server sets up when it starts.
-/

open Container

namespace Ircord

/-- The fields of `FileMetadata` that `createFile` reads. -/
structure FileMetadata where
  fileId : Str
  filename : Str
  fileSize : ℕ := 0
  mimeType : Str
  senderId : Str
  recipientId : Str
  channelId : Str
  uploadedAt : ℤ := 0
  expiresAt : ℤ := 0
  storagePath : Str := []
  isComplete : Bool := false
  deriving DecidableEq

/-- `static_cast<int>` of a `uint32_t`. -/
def toInt32 (n : UInt32) : ℤ := n.toBitVec.toInt

/-- `static_cast<uint32_t>` of an `int`. -/
def toUInt32 (n : ℤ) : UInt32 := UInt32.ofInt n

namespace FileStore

/-- Seven days. -/
def defaultTtlSeconds : ℤ := 7 * 24 * 3600

variable (db : Database)

/-- `createFile`: whether the row is new, and the tables afterwards. -/
def createFile (metadata : FileMetadata) (nowUnix : ℤ) : Bool × Database :=
  -- the statement leaves the checksum and the last two columns to their defaults
  let row : FileRow :=
    { filename := metadata.filename
      fileSize := metadata.fileSize
      mimeType := metadata.mimeType
      senderId := metadata.senderId
      recipientId := metadata.recipientId
      channelId := metadata.channelId
      uploadedAt := if metadata.uploadedAt > 0 then metadata.uploadedAt else nowUnix
      expiresAt := if metadata.expiresAt > 0 then metadata.expiresAt
        else nowUnix + defaultTtlSeconds
      fileChecksum := none
      storagePath := metadata.storagePath
      isComplete := metadata.isComplete
      isEncrypted := false
      encryptedKey := none }
  match db.insertFile metadata.fileId row with
  | .ok db => (true, db)
  | .error _ => (false, db)

def getFile (fileId : Str) : Option FileRow := db.files.lookup fileId

def markComplete (fileId : Str) (checksum : ByteVector) : Database :=
  db.updateFile fileId fun row => { row with isComplete := true, fileChecksum := checksum.bind }

def deleteFile (fileId : Str) : Database := db.deleteFiles fun id _ => id == fileId

/-- `storeChunk`: whether the chunk was stored, and the tables afterwards. -/
def storeChunk (fileId : Str) (index : UInt32) (data : ByteVector) : Bool × Database :=
  match db.replaceChunk fileId (toInt32 index) data with
  | .ok db => (true, db)
  | .error _ => (false, db)

def getChunk (fileId : Str) (index : UInt32) : Option Bytes :=
  (db.fileChunks.lookup (fileId, toInt32 index)).map (·.chunkData)

def hasChunk (fileId : Str) (index : UInt32) : Bool :=
  (db.fileChunks.lookup (fileId, toInt32 index)).isSome

/-- What a row does to the bitmap of `getMissingChunks`. -/
def markChunk (totalChunks : UInt32) (has : List Bool) (idx : UInt32) : List Bool :=
  if idx < totalChunks then has.set idx.toNat true else has

/-- The indices that the query of `getMissingChunks` reads, row after row. -/
def chunkIndices (fileId : Str) : List UInt32 :=
  (db.fileChunks.entries.filter fun e => e.1.1 == fileId).map fun e => toUInt32 e.1.2

def getMissingChunks (fileId : Str) (totalChunks : UInt32) : List UInt32 :=
  let has := (chunkIndices db fileId).foldl (markChunk totalChunks)
    (List.replicate totalChunks.toNat false)
  ((List.range totalChunks.toNat).map UInt32.ofNat).filter fun i => !has.getD i.toNat false

/-- `getReceivedBytes`: the sum of `chunk_size` over the chunks of the file. -/
def getReceivedBytes (fileId : Str) : ℕ :=
  ((db.fileChunks.entries.filter fun e => e.1.1 == fileId).map (·.2.chunkSize)).sum

def cleanupExpired (nowUnix : ℤ) : Database :=
  db.deleteFiles fun _ row => decide (row.expiresAt ≤ nowUnix)

/-! ## Encryption -/

/-- The `encryptor_` that `init_encryption` leaves. -/
def initEncryption (masterKeyHex : Str) : Option FileEncryptor :=
  let encryptor := FileEncryptor.new masterKeyHex
  if encryptor.isReady then some encryptor else none

def encryptionEnabled (encryptor : Option FileEncryptor) : Bool := encryptor.any (·.isReady)

/-- `maybe_encrypt`: the data to be stored, and the serialized key. -/
def maybeEncrypt (sodium : Sodium) (encryptor : Option FileEncryptor) (d : FileEncryptor.Draws)
    (data : Bytes) : Option (Bytes × Bytes) :=
  match encryptor.filter (·.isReady) with
  | none => some (data, [])
  | some encryptor => (encryptor.encrypt sodium d data).map fun (encrypted, key) =>
    (encrypted, FileEncryptor.serializeEncryptedKey key)

/-- `encryptAndStoreChunk`: whether the file was stored, and the tables afterwards. -/
def encryptAndStoreChunk (sodium : Sodium) (encryptor : Option FileEncryptor)
    (d : FileEncryptor.Draws) (fileId : Str) (plaintext : ByteVector) : Bool × Database :=
  if !encryptionEnabled encryptor then storeChunk db fileId 0 plaintext
  else
    match maybeEncrypt sodium encryptor d plaintext.bytes with
    | none => (false, db)
    | some (encrypted, encryptedKey) =>
      match storeChunk db fileId 0 encrypted with
      | (false, db) => (false, db)
      | (true, db) => (true, db.updateFile fileId fun row =>
        { row with isEncrypted := true, encryptedKey := bindBlob encryptedKey })

/-! ## The users table stays as it is -/

@[simp] theorem users_createFile (metadata : FileMetadata) (nowUnix : ℤ) :
    (createFile db metadata nowUnix).2.users = db.users := by
  unfold createFile Database.insertFile
  dsimp only
  split_ifs <;> rfl

@[simp] theorem users_markComplete (fileId : Str) (checksum : ByteVector) :
    (markComplete db fileId checksum).users = db.users := by
  unfold markComplete Database.updateFile
  split <;> rfl

@[simp] theorem users_deleteFile (fileId : Str) : (deleteFile db fileId).users = db.users := rfl

@[simp] theorem users_storeChunk (fileId : Str) (index : UInt32) (data : ByteVector) :
    (storeChunk db fileId index data).2.users = db.users := by
  unfold storeChunk Database.replaceChunk
  split
  · rename_i db' h
    split at h
    · cases h
    · split_ifs at h
      cases h
      rfl
  · rfl

end FileStore

end Ircord

import IrcordServer.Db.FileStore
import IrcordServer.Db.OfflineStore
import IrcordServer.Db.UserStore

/-!
# Which tables an operation writes

The user store writes to the users and their keys only, the offline store to the offline messages
only, and the file store to the files and their chunks only.
-/

namespace Ircord

namespace Database

/-- The offline messages, the files and the chunks are the same. -/
structure OnlyUsers (db db' : Database) : Prop where
  offlineMessages : db'.offlineMessages = db.offlineMessages
  files : db'.files = db.files
  fileChunks : db'.fileChunks = db.fileChunks

variable {db db' db'' : Database}

theorem OnlyUsers.refl (db : Database) : OnlyUsers db db := ⟨rfl, rfl, rfl⟩

theorem OnlyUsers.trans (h : OnlyUsers db db') (h' : OnlyUsers db' db'') : OnlyUsers db db'' :=
  ⟨h'.offlineMessages.trans h.offlineMessages, h'.files.trans h.files,
    h'.fileChunks.trans h.fileChunks⟩

theorem onlyUsers_insertUser {userId identityPub : Bytes} {createdAt : ℤ}
    (h : db.insertUser userId identityPub createdAt = .ok db') : OnlyUsers db db' := by
  unfold insertUser at h
  split at h
  · cases h
  · split_ifs at h
    cases h
    exact ⟨rfl, rfl, rfl⟩

theorem onlyUsers_updateUser (userId : Str) (f : UserRow → UserRow) :
    OnlyUsers db (db.updateUser userId f) := by
  unfold updateUser
  split <;> exact ⟨rfl, rfl, rfl⟩

theorem onlyUsers_replaceSignedPrekey {userId spkPub spkSig : Bytes} {uploadedAt : ℤ}
    (h : db.replaceSignedPrekey userId spkPub spkSig uploadedAt = .ok db') : OnlyUsers db db' := by
  unfold replaceSignedPrekey at h
  split at h
  · split_ifs at h
    cases h
    exact ⟨rfl, rfl, rfl⟩
  all_goals cases h

theorem onlyUsers_insertOneTimePrekey {userId opkPub : Bytes}
    (h : db.insertOneTimePrekey userId opkPub = .ok db') : OnlyUsers db db' := by
  unfold insertOneTimePrekey at h
  split at h
  · cases h
  · split_ifs at h
    cases h
    exact ⟨rfl, rfl, rfl⟩

theorem onlyUsers_deleteAllUsers (h : db.deleteAllUsers = .ok db') : OnlyUsers db db' := by
  unfold deleteAllUsers at h
  split_ifs at h
  cases h
  exact ⟨rfl, rfl, rfl⟩

end Database

open Database

variable {db db' : Database}

namespace UserStore

theorem onlyUsers_updateIdentityKey {userId : Str} {key : Bytes}
    (h : updateIdentityKey db userId key = .ok db') : OnlyUsers db db' := by
  unfold updateIdentityKey at h
  split at h
  · cases h
  · cases h
    exact onlyUsers_updateUser _ _

theorem onlyUsers_clearKeyMaterial (userId : Str) : OnlyUsers db (clearKeyMaterial db userId) :=
  ⟨rfl, rfl, rfl⟩

theorem onlyUsers_consumeOpk (userId : Str) : OnlyUsers db (consumeOpk db userId).2 := by
  unfold consumeOpk
  split <;> exact ⟨rfl, rfl, rfl⟩

theorem onlyUsers_setPassword (userId : Str) (hash : Option PwHash) :
    OnlyUsers db (setPassword db userId hash).2 := by
  cases hash with
  | none => exact .refl db
  | some hash => exact onlyUsers_updateUser _ _

theorem onlyUsers_updatePassword (crypto : Crypto) (userId oldPassword : Str)
    (hash : Option PwHash) : OnlyUsers db (updatePassword db crypto userId oldPassword hash).2 := by
  unfold updatePassword
  split_ifs
  · exact .refl db
  · exact onlyUsers_setPassword _ _

end UserStore

namespace OfflineStore

theorem files_deleteOldest : (deleteOldest db).files = db.files := by
  unfold deleteOldest
  split <;> rfl

theorem fileChunks_deleteOldest : (deleteOldest db).fileChunks = db.fileChunks := by
  unfold deleteOldest
  split <;> rfl

/-- What `save` leaves in the table was there before, or is the new message. -/
theorem mem_rows_deleteOldest {r : ℕ × OfflineMessageRow}
    (h : r ∈ (deleteOldest db).offlineMessages.rows) : r ∈ db.offlineMessages.rows := by
  unfold deleteOldest at h
  split at h
  · exact h
  · exact (Sql.Table.mem_retain.1 h).1

theorem save_cases (recipientId : Str) (payload : Bytes) (nowUnix : ℤ) :
    ∃ db₁ : Database, (db₁ = db ∨ db₁ = deleteOldest db) ∧
      ((save db recipientId payload nowUnix) = (false, db₁) ∨
        (save db recipientId payload nowUnix) = (true, { db₁ with
          offlineMessages := db₁.offlineMessages.insert
            ⟨recipientId, payload, nowUnix, nowUnix + ttlSeconds⟩ })) := by
  unfold save
  dsimp only
  split_ifs
  · exact ⟨db, Or.inl rfl, Or.inl rfl⟩
  all_goals
    unfold bindBlob
    split
    · exact ⟨_, by tauto, Or.inl rfl⟩
    · rename_i blob hblob
      split_ifs at hblob
      cases hblob
      exact ⟨_, by tauto, Or.inr rfl⟩

variable (db) in
theorem files_save (recipientId : Str) (payload : Bytes) (nowUnix : ℤ) :
    (save db recipientId payload nowUnix).2.files = db.files ∧
      (save db recipientId payload nowUnix).2.fileChunks = db.fileChunks := by
  obtain ⟨db₁, hdb₁, hsave⟩ := @save_cases db recipientId payload nowUnix
  have hfiles : db₁.files = db.files ∧ db₁.fileChunks = db.fileChunks := by
    rcases hdb₁ with rfl | rfl
    · exact ⟨rfl, rfl⟩
    · exact ⟨files_deleteOldest, fileChunks_deleteOldest⟩
  rcases hsave with hsave | hsave <;> rw [hsave] <;> exact hfiles

/-- What `save` leaves in the table was there before, or has the new payload. -/
theorem mem_rows_save {recipientId : Str} {payload : Bytes} {nowUnix : ℤ}
    {r : ℕ × OfflineMessageRow}
    (h : r ∈ (save db recipientId payload nowUnix).2.offlineMessages.rows) :
    r ∈ db.offlineMessages.rows ∨ r.2.payload = payload := by
  obtain ⟨db₁, hdb₁, hsave⟩ := @save_cases db recipientId payload nowUnix
  have hold : r ∈ db₁.offlineMessages.rows → r ∈ db.offlineMessages.rows := by
    rcases hdb₁ with rfl | rfl
    · exact id
    · exact mem_rows_deleteOldest
  rcases hsave with hsave | hsave
  · rw [hsave] at h
    exact Or.inl (hold h)
  · rw [hsave] at h
    rcases Sql.Table.mem_insert.1 h with h | rfl
    · exact Or.inl (hold h)
    · exact Or.inr rfl

end OfflineStore

namespace FileStore

theorem offlineMessages_createFile (metadata : FileMetadata) (nowUnix : ℤ) :
    (createFile db metadata nowUnix).2.offlineMessages = db.offlineMessages := by
  unfold createFile Database.insertFile
  dsimp only
  split_ifs <;> rfl

theorem offlineMessages_markComplete (fileId : Str) (checksum : ByteVector) :
    (markComplete db fileId checksum).offlineMessages = db.offlineMessages := by
  unfold markComplete Database.updateFile
  split <;> rfl

theorem offlineMessages_storeChunk (fileId : Str) (index : UInt32) (data : ByteVector) :
    (storeChunk db fileId index data).2.offlineMessages = db.offlineMessages := by
  unfold storeChunk Database.replaceChunk
  split
  · rename_i db' h
    split at h
    · cases h
    · split_ifs at h
      cases h
      rfl
  · rfl

end FileStore

end Ircord

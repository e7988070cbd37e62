import IrcordServer.Crypto.SealedFiles
import IrcordServer.Net.FileUploads

/-!
# Uploads and encryption

The server sets up encryption when it starts, and `handle_file_upload` stores chunks as they come.
With encryption set up, files are stored encrypted only in runs that store none.
-/

open Container Run

namespace Ircord

namespace FileStore

variable {sodium : Sodium} {encryptor : Option FileEncryptor} {d : FileEncryptor.Draws}
  {db : Database} {fileId : Str}

/-- What is stored of an encrypted file is longer than the file. -/
theorem maybeEncrypt_spec (hsodium : sodium.Lawful) (henabled : encryptionEnabled encryptor = true)
    {plaintext encrypted encryptedKey : Bytes}
    (h : maybeEncrypt sodium encryptor d plaintext = some (encrypted, encryptedKey)) :
    plaintext.length < encrypted.length ∧ encryptedKey ≠ [] := by
  obtain ⟨fe, rfl, hready⟩ := (Option.any_eq_true _ _).1 henabled
  unfold maybeEncrypt at h
  rw [Option.filter_some, if_pos hready] at h
  obtain ⟨⟨blob, key⟩, hencrypt, e⟩ := Option.map_eq_some_iff.1 h
  cases e
  constructor
  · rw [FileEncryptor.length_encrypt hsodium hencrypt]
    exact Nat.lt_add_of_pos_left (by decide)
  · intro hnil
    have hiv := (List.append_eq_nil_iff.1 hnil).1
    exact absurd (hiv ▸ key.iv.2) (by decide)

/-- The file that `encryptAndStoreChunk` stores is encrypted, and its row says so. -/
theorem encryptAndStoreChunk_spec (hsodium : sodium.Lawful)
    (henabled : encryptionEnabled encryptor = true) {plaintext : ByteVector}
    (h : (encryptAndStoreChunk db sodium encryptor d fileId plaintext).1 = true) :
    getChunk (encryptAndStoreChunk db sodium encryptor d fileId plaintext).2 fileId 0 ≠
        some plaintext.bytes ∧
      ∃ row, (encryptAndStoreChunk db sodium encryptor d fileId plaintext).2.files.lookup fileId =
        some row ∧ row.isEncrypted = true ∧ row.encryptedKey ≠ none := by
  unfold encryptAndStoreChunk at h ⊢
  rw [if_neg (by rw [henabled]; exact Bool.false_ne_true)] at h ⊢
  cases hencrypt : maybeEncrypt sodium encryptor d plaintext.bytes with
  | none =>
    rw [hencrypt] at h
    cases h
  | some stored =>
    obtain ⟨encrypted, encryptedKey⟩ := stored
    obtain ⟨hlonger, hkey⟩ := maybeEncrypt_spec hsodium henabled hencrypt
    rw [hencrypt] at h
    dsimp only at h ⊢
    rcases storeChunk_cases db fileId 0 encrypted with e | ⟨-, hmem, htrue, hfiles, hchunks⟩
    · rw [e] at h
      cases h
    · rcases hstore : storeChunk db fileId 0 encrypted with ⟨ok, db'⟩
      rw [hstore] at htrue hfiles hchunks
      cases htrue
      dsimp only at hfiles hchunks ⊢
      rw [getChunk_congr (fileChunks_updateFile _), getChunk_insert hchunks, if_pos ⟨rfl, rfl⟩]
      constructor
      · intro hsame
        rw [Option.some.inj hsame] at hlonger
        exact lt_irrefl _ hlonger
      · obtain ⟨row, hrow⟩ := UnorderedMap.mem_iff_lookup.1 hmem
        refine ⟨{ row with isEncrypted := true, encryptedKey := bindBlob encryptedKey }, ?_, rfl,
          ?_⟩
        · rw [lookup_files_updateFile, if_pos rfl, hfiles, hrow, Option.map_some]
        · show bindBlob encryptedKey ≠ none
          rw [bindBlob_of_ne_nil hkey]
          exact Option.some_ne_none _

end FileStore

/-- The server with the `encryptor_` of its file store. -/
structure Vault where
  sv : Server
  encryptor : Option FileEncryptor

namespace Vault

variable {codec : Codec} {crypto : Crypto} {v : Vault} {i : Input}

/-- The key is `file_encryption_key` of the configuration. -/
def start (config : Config) (db : Database) (fileEncryptionKey : Str) : Vault where
  sv := .start config db
  encryptor := if fileEncryptionKey.isEmpty then none
    else FileStore.initEncryption fileEncryptionKey

def step (codec : Codec) (crypto : Crypto) (v : Vault) (i : Input) : Vault where
  sv := v.sv.step codec crypto i
  encryptor := v.encryptor

def encryptionEnabled (v : Vault) : Bool := FileStore.encryptionEnabled v.encryptor

/-- Encryption stays as it was set up. -/
theorem encryptionEnabled_final (v : Vault) (is : List Input) :
    (final (step codec crypto) v is).encryptionEnabled = v.encryptionEnabled := by
  induction is generalizing v with
  | nil => rfl
  | cons i is ih => exact ih (v.step codec crypto i)

/-- The row says that the file is encrypted, and has its key. -/
def RowEncrypted (row : FileRow) : Prop := row.isEncrypted = true ∧ row.encryptedKey ≠ none

instance (row : FileRow) : Decidable (RowEncrypted row) := inferInstanceAs (Decidable (_ ∧ _))

/-- With encryption set up, every complete file is encrypted. -/
def CompleteEncrypted (v : Vault) : Prop :=
  v.encryptionEnabled = true → ∀ fileId row, v.sv.db.files.lookup fileId = some row →
    row.isComplete = true → RowEncrypted row

/-- With encryption set up, a chunk is not stored as it came. -/
def StoresEncrypted (codec : Codec) (crypto : Crypto) (v : Vault) (i : Input) : Prop :=
  v.encryptionEnabled = true → ∀ chunk upload, v.sv.storedChunk codec i = some (chunk, upload) →
    FileStore.getChunk (v.step codec crypto i).sv.db chunk.fileId chunk.chunkIndex ≠
      some chunk.data

/-- With encryption set up, no chunk is stored. -/
def StoresNothing (codec : Codec) (v : Vault) (i : Input) : Prop :=
  v.encryptionEnabled = true → v.sv.storedChunk codec i = none

theorem storesEncrypted_iff : StoresEncrypted codec crypto v i ↔ StoresNothing codec v i := by
  constructor
  · intro h henabled
    rcases Server.fileStep codec crypto v.sv i with ⟨-, hstored, -⟩ | ⟨-, hstored, -⟩ |
      ⟨-, -, -, hstored, -⟩ | ⟨chunk, upload, -, hstored, -, -, hchunks⟩
    · exact hstored
    · exact hstored
    · exact hstored
    · refine absurd ?_ (h henabled chunk upload hstored)
      show FileStore.getChunk (Server.step codec crypto v.sv i).db _ _ = _
      rw [FileStore.getChunk_insert hchunks, if_pos ⟨rfl, rfl⟩]
  · intro h henabled chunk upload hstored
    rw [h henabled] at hstored
    cases hstored

theorem completeEncrypted_step (h : CompleteEncrypted v) (hnothing : StoresNothing codec v i) :
    CompleteEncrypted (v.step codec crypto i) := by
  intro henabled fileId row hrow hcomplete
  rcases Server.lookup_files_step hrow with hrow | ⟨req, -, -, hincomplete, -⟩ | ⟨p, hstored, -⟩
  · exact h henabled fileId row hrow hcomplete
  · rw [hincomplete] at hcomplete
    cases hcomplete
  · rw [hnothing henabled] at hstored
    cases hstored

/-- From a database whose complete files are encrypted, they always are, and no chunk is stored as
it came, if and only if encryption is not set up or no chunk is stored. -/
theorem files_encrypted_iff (codec : Codec) (crypto : Crypto) (config : Config) (db : Database)
    (fileEncryptionKey : Str) (hdb : CompleteEncrypted (start config db fileEncryptionKey))
    (is : List Input) :
    (AllStates (step codec crypto) CompleteEncrypted (start config db fileEncryptionKey) is ∧
        AllSteps (step codec crypto) (StoresEncrypted codec crypto)
          (start config db fileEncryptionKey) is) ↔
      AllSteps (step codec crypto) (StoresNothing codec) (start config db fileEncryptionKey)
        is := by
  constructor
  · rintro ⟨-, h⟩
    exact h.mono fun _ _ => storesEncrypted_iff.1
  · intro h
    exact ⟨.of_steps hdb (fun _ _ => completeEncrypted_step) h, h.mono fun _ _ =>
      storesEncrypted_iff.2⟩

theorem completeEncrypted_start_empty (config : Config) (fileEncryptionKey : Str) :
    CompleteEncrypted (start config .empty fileEncryptionKey) := by
  intro henabled fileId row hrow
  cases hrow

/-! ## A file that is stored as it came -/

/-- A key of 64 characters. -/
def hexKey : Str := (List.replicate 32 (str "01")).flatten

/-- `alice` uploads a file. -/
theorem not_storesEncrypted_wholeRun :
    (start ⟨10, 10, 10, []⟩ .empty hexKey).encryptionEnabled = true ∧
      ¬ AllStates (step .proto3 Server.aliceBobCrypto) CompleteEncrypted
        (start ⟨10, 10, 10, []⟩ .empty hexKey) Archive.wholeRun ∧
      ¬ AllSteps (step .proto3 Server.aliceBobCrypto)
        (StoresEncrypted .proto3 Server.aliceBobCrypto)
        (start ⟨10, 10, 10, []⟩ .empty hexKey) Archive.wholeRun := by
  have henabled : (start ⟨10, 10, 10, []⟩ .empty hexKey).encryptionEnabled = true := by
    decide +kernel
  refine ⟨henabled, fun h => ?_, fun h => ?_⟩
  · have hrow : ∃ row ∈ (final (step .proto3 Server.aliceBobCrypto)
        (start ⟨10, 10, 10, []⟩ .empty hexKey) Archive.wholeRun).sv.db.files.lookup (str "f"),
        row.isComplete = true ∧ ¬ RowEncrypted row := by
      decide +kernel
    obtain ⟨row, hrow, hcomplete, hplain⟩ := hrow
    exact hplain (h.final ((encryptionEnabled_final _ _).trans henabled) (str "f") row hrow
      hcomplete)
  · have hstored : (final (step .proto3 Server.aliceBobCrypto)
        (start ⟨10, 10, 10, []⟩ .empty hexKey) (Archive.wholeRun.take 11)).sv.storedChunk .proto3
          (Archive.wholeRun.get ⟨11, by decide⟩) ≠ none := by
      decide +kernel
    exact hstored (storesEncrypted_iff.1 (h.after 11 (by decide))
      ((encryptionEnabled_final _ _).trans henabled))

theorem files_encrypted_iff_wholeRun :
    (AllStates (step .proto3 Server.aliceBobCrypto) CompleteEncrypted
          (start ⟨10, 10, 10, []⟩ .empty hexKey) Archive.wholeRun ∧
        AllSteps (step .proto3 Server.aliceBobCrypto)
          (StoresEncrypted .proto3 Server.aliceBobCrypto)
          (start ⟨10, 10, 10, []⟩ .empty hexKey) Archive.wholeRun) ↔
      AllSteps (step .proto3 Server.aliceBobCrypto) (StoresNothing .proto3)
        (start ⟨10, 10, 10, []⟩ .empty hexKey) Archive.wholeRun :=
  files_encrypted_iff .proto3 Server.aliceBobCrypto ⟨10, 10, 10, []⟩ .empty hexKey
    (completeEncrypted_start_empty ⟨10, 10, 10, []⟩ hexKey) Archive.wholeRun

end Vault

end Ircord

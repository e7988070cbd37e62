import IrcordServer.Crypto.TamperedFiles
import IrcordServer.Db.FileTables
import IrcordServer.Run

/-!
# Files that are stored and read again

`encryptAndStoreChunk` and `decryptAndGetChunk`, with restarts in between that set up encryption
with any key or with none.  The row of a file keeps saying that it is encrypted, and keeps the key,
also when a later file under the same id is stored as it is.
-/

open Container Run

namespace Ircord

namespace FileEncryptor

variable {sodium : Sodium} {fe fe' : FileEncryptor} {d : Draws} {key : EncryptedKey}
  {plaintext blob : Bytes}

/-- What `fe` sealed with these draws opens only under the key and the nonce that it was sealed
under: not with the key of another encryptor `fe'`, and not with a nonce that lost its end. -/
structure OpensOnly (sodium : Sodium) (fe fe' : FileEncryptor) (d : Draws) (plaintext : Bytes) :
    Prop where
  dek : ∀ kek kek', deriveKey sodium fe.masterKey d.dekSalt = some kek →
    deriveKey sodium fe'.masterKey d.dekSalt = some kek' → kek' ≠ kek →
      sodium.secretboxOpenEasy (sodium.secretboxEasy d.dek.1 (nonceOfIv d.dekIv) kek)
        (nonceOfIv d.dekIv) kek' = none
  file : ∀ fileKey, deriveKey sodium d.dek.1 d.salt = some fileKey →
    rebuiltNonce d.nonce ≠ d.nonce →
      sodium.secretboxOpenEasy (sodium.secretboxEasy plaintext d.nonce fileKey)
        (rebuiltNonce d.nonce) fileKey = none

/-- Whoever gets the key of a file out of its encrypted key gets that key. -/
theorem decryptDek_eq_of_encryptDek (hsodium : sodium.Lawful)
    (hopens : OpensOnly sodium fe fe' d plaintext)
    (hkey : encryptDek sodium fe d d.dek.1 = some key) {dek : Bytes}
    (h : decryptDek sodium fe' key = some dek) : dek = d.dek.1 := by
  have hlength := length_encryptDek hsodium hkey
  obtain ⟨kek, hkek, hkey⟩ := Option.bind_eq_some_iff.1 hkey
  cases hkey
  unfold decryptDek at h
  rw [if_neg (by rw [hlength]; decide), Octets.copy_append, Octets.drop_append] at h
  obtain ⟨kek', hkek', h⟩ := Option.bind_eq_some_iff.1 h
  obtain ⟨opened, hopened, h⟩ := Option.bind_eq_some_iff.1 h
  by_cases hsame : kek' = kek
  · rw [hsame, hsodium.open_easy] at hopened
    cases hopened
    cases h
    rw [Octets.copy_val]
  · rw [hopens.dek kek kek' hkek hkek' hsame] at hopened
    cases hopened

/-- An encrypted file is decrypted, or it is not, under any encryptor. -/
theorem decryptOrThrow_of_encrypt (hsodium : sodium.Lawful)
    (hopens : OpensOnly sodium fe fe' d plaintext) (hsize : plaintext.length ≤ maxVectorSize)
    (h : fe.encrypt sodium d plaintext = some (blob, key)) :
    decryptOrThrow sodium fe' blob key = .ok none ∨
      decryptOrThrow sodium fe' blob key = .ok (some plaintext) := by
  obtain ⟨-, hkey, fileKey, encrypted, hfileKey, hencrypted, hblob⟩ := encrypt_eq_some h
  have hmac : macBytes ≤ encrypted.length := by
    rw [hencrypted, hsodium.length_easy]
    exact Nat.le_add_left _ _
  have hparse := parse_serialize (headerOf d plaintext encrypted) (encrypted.drop macBytes)
  rw [← hblob] at hparse
  have hsmall : plaintext.length % 256 ^ 8 = plaintext.length := by
    apply Nat.mod_eq_of_lt
    have : maxVectorSize < 256 ^ 8 := by decide
    omega
  cases hr : openRequest sodium fe' blob key with
  | none =>
    left
    rw [decryptOrThrow, hr]
  | some r =>
    obtain ⟨-, -, dek, fileKey', hdek, hfileKey', e⟩ := openRequest_eq_some_iff.1 hr
    rw [decryptDek_eq_of_encryptDek hsodium hopens hkey hdek, hparse] at hfileKey'
    obtain rfl : fileKey = fileKey' := Option.some.inj (hfileKey.symm.trans hfileKey')
    have hr' : r = ⟨encrypted, rebuiltNonce d.nonce, fileKey⟩ := by
      rw [e, hparse, hblob, List.drop_left' (length_serialize _)]
      simp only [headerOf, rebuiltNonce, OpenRequest.mk.injEq, and_self, and_true]
      rw [Octets.val_copy_of_le hmac, List.take_append_drop]
    have horiginal : (EncryptedHeader.parse blob).originalSize = plaintext.length := by
      rw [hparse]
      exact hsmall
    rw [decryptOrThrow, hr]
    dsimp only
    rw [horiginal, if_neg (Nat.not_lt.2 hsize), hr', Sodium.opens, hencrypted]
    by_cases hnonce : rebuiltNonce d.nonce = d.nonce
    · right
      rw [hnonce, hsodium.open_easy, Option.map_some, List.takeD_eq_take 0 le_rfl,
        List.take_length]
    · left
      rw [hopens.file fileKey hfileKey hnonce, Option.map_none]

end FileEncryptor

namespace FileStore

/-! ## Reading a file -/

/-- `maybe_decrypt`. -/
def maybeDecrypt (sodium : Sodium) (encryptor : Option FileEncryptor) (data encryptedKey : Bytes) :
    Except StdException (Option Bytes) :=
  match encryptor.filter (·.isReady) with
  | none => .ok (some data)
  | some encryptor =>
    if encryptedKey.isEmpty then .ok (some data)
    else
      match FileEncryptor.deserializeEncryptedKey encryptedKey with
      | none => .ok none
      | some key => encryptor.decryptOrThrow sodium data key

/-- `decryptAndGetChunk`; what `maybe_decrypt` throws is not caught. -/
def decryptAndGetChunk (db : Database) (sodium : Sodium) (encryptor : Option FileEncryptor)
    (fileId : Str) : Except StdException (Option Bytes) :=
  match getChunk db fileId 0 with
  | none => .ok none
  | some encrypted =>
    match db.files.lookup fileId with
    | none => .ok none
    | some row =>
      if !row.isEncrypted then .ok (some encrypted)
      else
        match row.encryptedKey with
        | none => .ok none
        | some encryptedKey => maybeDecrypt sodium encryptor encrypted encryptedKey

variable {sodium : Sodium} {encryptor : Option FileEncryptor} {d : FileEncryptor.Draws}
  {db : Database} {fileId : Str} {plaintext : ByteVector}

theorem encryptAndStoreChunk_of_none (h : encryptor.filter (·.isReady) = none) :
    encryptAndStoreChunk db sodium encryptor d fileId plaintext =
      storeChunk db fileId 0 plaintext := by
  have hoff : encryptionEnabled encryptor = false := by
    rw [encryptionEnabled, ← Bool.not_eq_true, Option.any_eq_true]
    rintro ⟨fe, he, hready⟩
    exact Option.filter_eq_none_iff.1 h fe he hready
  exact if_pos (by rw [hoff]; rfl)

theorem encryptAndStoreChunk_of_some {fe : FileEncryptor}
    (h : encryptor.filter (·.isReady) = some fe) :
    encryptAndStoreChunk db sodium encryptor d fileId plaintext =
      match fe.encrypt sodium d plaintext.bytes with
      | none => (false, db)
      | some (blob, key) =>
        match storeChunk db fileId 0 blob with
        | (false, db) => (false, db)
        | (true, db) => (true, db.updateFile fileId fun row =>
          { row with
            isEncrypted := true
            encryptedKey := bindBlob (FileEncryptor.serializeEncryptedKey key) }) := by
  obtain ⟨he, hready⟩ := Option.filter_eq_some_iff.1 h
  have hon : encryptionEnabled encryptor = true := (Option.any_eq_true _ _).2 ⟨fe, he, hready⟩
  unfold encryptAndStoreChunk maybeEncrypt
  rw [if_neg (by rw [hon]; exact Bool.false_ne_true), h]
  dsimp only
  cases fe.encrypt sodium d plaintext.bytes <;> rfl

theorem serializeEncryptedKey_ne_nil (key : FileEncryptor.EncryptedKey) :
    FileEncryptor.serializeEncryptedKey key ≠ [] := by
  intro hnil
  have hlength := FileEncryptor.length_serializeEncryptedKey key
  have hiv : FileEncryptor.ivSize = 12 := rfl
  rw [hnil, List.length_nil] at hlength
  omega

/-- A file that is stored is there as it came, or encrypted with its row saying so. -/
theorem encryptAndStoreChunk_cases (db : Database) (sodium : Sodium)
    (encryptor : Option FileEncryptor) (d : FileEncryptor.Draws) (fileId : Str)
    (plaintext : ByteVector) :
    encryptAndStoreChunk db sodium encryptor d fileId plaintext = (false, db) ∨
    (encryptAndStoreChunk db sodium encryptor d fileId plaintext).1 = true ∧
      match encryptor.filter (·.isReady) with
      | none =>
        getChunk (encryptAndStoreChunk db sodium encryptor d fileId plaintext).2 fileId 0 =
          some plaintext.bytes
      | some fe => ∃ blob key row, fe.encrypt sodium d plaintext.bytes = some (blob, key) ∧
        getChunk (encryptAndStoreChunk db sodium encryptor d fileId plaintext).2 fileId 0 =
          some blob ∧
        (encryptAndStoreChunk db sodium encryptor d fileId plaintext).2.files.lookup fileId =
          some row ∧
        row.isEncrypted = true ∧
        row.encryptedKey = some (FileEncryptor.serializeEncryptedKey key) := by
  cases hfe : encryptor.filter (·.isReady) with
  | none =>
    rw [encryptAndStoreChunk_of_none hfe]
    rcases storeVector_cases db fileId 0 plaintext with e | ⟨-, -, htrue, -, hchunks⟩
    · exact Or.inl e
    · refine Or.inr ⟨htrue, ?_⟩
      dsimp only
      rw [getChunk_insert hchunks, if_pos ⟨rfl, rfl⟩]
  | some fe =>
    rw [encryptAndStoreChunk_of_some hfe]
    cases hencrypt : fe.encrypt sodium d plaintext.bytes with
    | none => exact Or.inl rfl
    | some stored =>
      obtain ⟨blob, key⟩ := stored
      dsimp only
      rcases storeChunk_cases db fileId 0 blob with e | ⟨-, hmem, htrue, hfiles, hchunks⟩
      · rw [e]
        exact Or.inl rfl
      · rcases hstore : storeChunk db fileId 0 blob with ⟨ok, db'⟩
        rw [hstore] at htrue hfiles hchunks
        cases htrue
        obtain ⟨row, hrow⟩ := UnorderedMap.mem_iff_lookup.1 hmem
        refine Or.inr ⟨rfl, blob, key, { row with
          isEncrypted := true
          encryptedKey := bindBlob (FileEncryptor.serializeEncryptedKey key) },
          hencrypt, ?_, ?_, rfl, bindBlob_of_ne_nil (serializeEncryptedKey_ne_nil key)⟩
        · dsimp only
          rw [getChunk_congr (fileChunks_updateFile _), getChunk_insert hchunks, if_pos ⟨rfl, rfl⟩]
        · dsimp only at hfiles ⊢
          rw [lookup_files_updateFile, if_pos rfl, hfiles, hrow, Option.map_some]

/-- A file that was stored as it came is read so, unless it reads as an encrypted file under the key
that its row has. -/
theorem decryptAndGetChunk_of_plain {data : Bytes} (hdata : getChunk db fileId 0 = some data)
    (hplain : ∀ row, db.files.lookup fileId = some row → row.isEncrypted = true →
      ∀ fe, encryptor.filter (·.isReady) = some fe →
        ∀ encryptedKey key, row.encryptedKey = some encryptedKey →
          FileEncryptor.deserializeEncryptedKey encryptedKey = some key →
            ¬ fe.ReadsAsEncrypted sodium key data) :
    decryptAndGetChunk db sodium encryptor fileId = .ok none ∨
      decryptAndGetChunk db sodium encryptor fileId = .ok (some data) := by
  unfold decryptAndGetChunk maybeDecrypt
  rw [hdata]
  cases hrow : db.files.lookup fileId with
  | none => exact Or.inl rfl
  | some row =>
    dsimp only
    cases henc : row.isEncrypted with
    | false => exact Or.inr rfl
    | true =>
      cases hkey : row.encryptedKey with
      | none => exact Or.inl rfl
      | some encryptedKey =>
        cases hfe : encryptor.filter (·.isReady) with
        | none => exact Or.inr rfl
        | some fe =>
          dsimp only
          rw [if_neg (by simp)]
          split_ifs
          · exact Or.inr rfl
          · cases hparse : FileEncryptor.deserializeEncryptedKey encryptedKey with
            | none => exact Or.inl rfl
            | some key =>
              left
              exact FileEncryptor.decryptOrThrow_of_not_readsAsEncrypted
                (hplain row hrow henc fe hfe encryptedKey key hkey hparse)

/-- A file that was stored encrypted is read decrypted, or not at all. -/
theorem decryptAndGetChunk_of_sealed {fe fe' : FileEncryptor} {plaintext blob : Bytes}
    {key : FileEncryptor.EncryptedKey} {row : FileRow} (hsodium : sodium.Lawful)
    (hopens : FileEncryptor.OpensOnly sodium fe fe' d plaintext)
    (hsize : plaintext.length ≤ maxVectorSize)
    (hencrypt : fe.encrypt sodium d plaintext = some (blob, key))
    (hblob : getChunk db fileId 0 = some blob) (hrow : db.files.lookup fileId = some row)
    (henc : row.isEncrypted = true)
    (hkey : row.encryptedKey = some (FileEncryptor.serializeEncryptedKey key))
    (hfe' : encryptor.filter (·.isReady) = some fe') :
    decryptAndGetChunk db sodium encryptor fileId = .ok none ∨
      decryptAndGetChunk db sodium encryptor fileId = .ok (some plaintext) := by
  have hshort : key.ciphertext.length < 256 ^ 4 := by
    rw [FileEncryptor.length_encryptDek hsodium (FileEncryptor.encrypt_eq_some hencrypt).2.1]
    decide
  have hresult : decryptAndGetChunk db sodium encryptor fileId =
      fe'.decryptOrThrow sodium blob key := by
    unfold decryptAndGetChunk maybeDecrypt
    rw [hblob, hrow]
    dsimp only
    rw [henc, hkey, hfe']
    dsimp only
    rw [if_neg (by simp), if_neg (by simpa using serializeEncryptedKey_ne_nil key),
      FileEncryptor.deserialize_serialize_encryptedKey hshort]
  rw [hresult]
  exact FileEncryptor.decryptOrThrow_of_encrypt hsodium hopens hsize hencrypt

end FileStore

/-! ## Runs with restarts -/

deriving instance DecidableEq for FileEncryptor.Draws

/-- A `std::vector` that fits into memory. -/
abbrev StdVector := { v : ByteVector // v.bytes.length ≤ maxVectorSize }

inductive ChunkCall
  | encryptAndStoreChunk (plaintext : StdVector) (d : FileEncryptor.Draws)
  | decryptAndGetChunk
  /-- With `file_encryption_key` of the configuration. -/
  | restart (fileEncryptionKey : Str)
  deriving DecidableEq

/-- The file that was stored last, and what encrypted it. -/
structure StoredFile where
  plaintext : Bytes
  sealedBy : Option (FileEncryptor × FileEncryptor.Draws)
  deriving DecidableEq

/-- The store of one file, with what was stored in it last. -/
structure ChunkStore where
  db : Database
  encryptor : Option FileEncryptor
  stored : Option StoredFile

namespace ChunkStore

/-- Before any file is stored. -/
def start (db : Database) : ChunkStore := ⟨db, none, none⟩

variable (sodium : Sodium) (fileId : Str)

def step (st : ChunkStore) : ChunkCall → ChunkStore
  | .encryptAndStoreChunk plaintext d =>
    let (ok, db) := FileStore.encryptAndStoreChunk st.db sodium st.encryptor d fileId plaintext.1
    let sealedBy := (st.encryptor.filter (·.isReady)).map fun fe => (fe, d)
    { st with
      db := db
      stored := if ok then some ⟨plaintext.1.bytes, sealedBy⟩ else st.stored }
  | .decryptAndGetChunk => st
  | .restart fileEncryptionKey => { st with
      encryptor := if fileEncryptionKey.isEmpty then none
        else FileStore.initEncryption fileEncryptionKey }

def returned (st : ChunkStore) : Except StdException (Option Bytes) :=
  FileStore.decryptAndGetChunk st.db sodium st.encryptor fileId

/-- A call of `decryptAndGetChunk` returns nothing, or the file that was stored last. -/
def ReturnsStored (st : ChunkStore) (c : ChunkCall) : Prop :=
  c = .decryptAndGetChunk → st.returned sodium fileId = .ok none ∨
    ∃ file, st.stored = some file ∧ st.returned sodium fileId = .ok (some file.plaintext)

/-- A file whose row says that it is encrypted is read with encryption set up, if it was stored so;
and else without, or its bytes do not read as an encrypted file under the key of the row. -/
def ReadAsStored (st : ChunkStore) (c : ChunkCall) : Prop :=
  c = .decryptAndGetChunk → ∀ row file, st.db.files.lookup fileId = some row →
    row.isEncrypted = true → st.stored = some file →
      match file.sealedBy with
      | some _ => FileStore.encryptionEnabled st.encryptor = true
      | none => ∀ fe, st.encryptor.filter (·.isReady) = some fe →
        ∀ encryptedKey key, row.encryptedKey = some encryptedKey →
          FileEncryptor.deserializeEncryptedKey encryptedKey = some key →
            ¬ fe.ReadsAsEncrypted sodium key file.plaintext

/-- libsodium does not open the encrypted file in another way with the present key. -/
def CipherHolds (st : ChunkStore) (_ : ChunkCall) : Prop :=
  ∀ file fe d fe', st.stored = some file → file.sealedBy = some (fe, d) →
    st.encryptor = some fe' → FileEncryptor.OpensOnly sodium fe fe' d file.plaintext

/-- What the tables have of the file that was stored last. -/
structure Holds (st : ChunkStore) : Prop where
  nothing : st.stored = none → FileStore.getChunk st.db fileId 0 = none
  plain : ∀ file, st.stored = some file → file.sealedBy = none →
    FileStore.getChunk st.db fileId 0 = some file.plaintext
  encrypted : ∀ file fe d, st.stored = some file → file.sealedBy = some (fe, d) →
    file.plaintext.length ≤ maxVectorSize ∧
      ∃ blob key row, fe.encrypt sodium d file.plaintext = some (blob, key) ∧
        FileStore.getChunk st.db fileId 0 = some blob ∧
        st.db.files.lookup fileId = some row ∧ row.isEncrypted = true ∧
        row.encryptedKey = some (FileEncryptor.serializeEncryptedKey key)

variable {sodium fileId} {st : ChunkStore}

theorem Holds.step (h : Holds sodium fileId st) (c : ChunkCall) :
    Holds sodium fileId (st.step sodium fileId c) := by
  cases c with
  | decryptAndGetChunk => exact h
  | restart fileEncryptionKey => exact ⟨h.nothing, h.plain, h.encrypted⟩
  | encryptAndStoreChunk plaintext d =>
    have hcases :=
      FileStore.encryptAndStoreChunk_cases st.db sodium st.encryptor d fileId plaintext.1
    dsimp only [ChunkStore.step]
    rcases hres : FileStore.encryptAndStoreChunk st.db sodium st.encryptor d fileId plaintext.1
      with ⟨ok, db⟩
    rw [hres] at hcases
    rcases hcases with e | ⟨htrue, hstored⟩
    · cases e
      exact ⟨h.nothing, h.plain, h.encrypted⟩
    · cases htrue
      dsimp only [if_true] at hstored ⊢
      cases hfe : st.encryptor.filter (·.isReady) with
      | none =>
        rw [hfe] at hstored
        constructor
        · rintro ⟨⟩
        · rintro _ ⟨⟩ -
          exact hstored
        · rintro _ fe d ⟨⟩ ⟨⟩
      | some fe =>
        rw [hfe] at hstored
        constructor
        · rintro ⟨⟩
        · rintro _ ⟨⟩ ⟨⟩
        · rintro _ _ _ ⟨⟩ ⟨⟩
          exact ⟨plaintext.2, hstored⟩

theorem Holds.returnsStored (h : Holds sodium fileId st) (hsodium : sodium.Lawful) {c : ChunkCall}
    (hcipher : CipherHolds sodium st c) (hread : ReadAsStored sodium fileId st c) :
    ReturnsStored sodium fileId st c := by
  intro hc
  unfold returned
  cases hfile : st.stored with
  | none =>
    left
    rw [FileStore.decryptAndGetChunk, h.nothing hfile]
  | some file =>
    have hresult : FileStore.decryptAndGetChunk st.db sodium st.encryptor fileId = .ok none ∨
        FileStore.decryptAndGetChunk st.db sodium st.encryptor fileId =
          .ok (some file.plaintext) := by
      cases hsealed : file.sealedBy with
      | none =>
        refine FileStore.decryptAndGetChunk_of_plain (h.plain file hfile hsealed) ?_
        intro row hrow henc
        have hplain := hread hc row file hrow henc hfile
        rw [hsealed] at hplain
        exact hplain
      | some sealing =>
        obtain ⟨fe, d⟩ := sealing
        obtain ⟨hsize, blob, key, row, hencrypt, hblob, hrow, henc, hkey⟩ :=
          h.encrypted file fe d hfile hsealed
        have hon := hread hc row file hrow henc hfile
        rw [hsealed] at hon
        obtain ⟨fe', hfe', hready⟩ := (Option.any_eq_true _ _).1 hon
        exact FileStore.decryptAndGetChunk_of_sealed hsodium
          (hcipher file fe d fe' hfile hsealed hfe') hsize hencrypt hblob hrow henc hkey
          (by rw [hfe', Option.filter_some, if_pos hready])
    exact hresult.imp_right fun e => ⟨file, rfl, e⟩

/-- In every run that starts with no file and reads files as they were stored, nothing else is
returned. -/
theorem file_returned (sodium : Sodium) (hsodium : sodium.Lawful) (fileId : Str) (db : Database)
    (hnew : FileStore.getChunk db fileId 0 = none) (calls : List ChunkCall)
    (hcipher : AllSteps (fun st => step sodium fileId st) (CipherHolds sodium) (start db) calls)
    (hread : AllSteps (fun st => step sodium fileId st) (ReadAsStored sodium fileId) (start db)
      calls) :
    AllSteps (fun st => step sodium fileId st) (ReturnsStored sodium fileId) (start db) calls := by
  have h₀ : Holds sodium fileId (start db) := by
    refine ⟨fun _ => hnew, ?_, ?_⟩
    · rintro _ ⟨⟩
    · rintro _ _ _ ⟨⟩
  have hholds : AllStates (fun st => step sodium fileId st) (Holds sodium fileId) (start db)
      calls :=
    .of_invariant h₀ (fun _ c h => h.step c) calls
  refine allSteps_iff.2 fun pre c post e => ?_
  exact (allStates_iff.1 hholds pre (c :: post) e).returnsStored hsodium
    (allSteps_iff.1 hcipher pre c post e) (allSteps_iff.1 hread pre c post e)

/-! ## A file that is read without its key -/

/-- A database with the row of a file. -/
def oneFile : Database := (FileStore.createFile .empty {
  fileId := str "f"
  filename := str "f"
  fileSize := 5
  mimeType := []
  senderId := []
  recipientId := []
  channelId := [] } 0).2

def fileKeyHex : Str := (List.replicate 32 (str "01")).flatten

def hello : StdVector := ⟨.ofRange (str "hello"), by decide⟩

/-- A file is stored with the key, and read with the key of the last restart. -/
def readAfter (fileEncryptionKey : Str) : List ChunkCall :=
  [.restart fileKeyHex, .encryptAndStoreChunk hello FileEncryptor.keptDraws,
    .restart fileEncryptionKey, .decryptAndGetChunk]

theorem lawful_keptSodium : FileEncryptor.keptSodium.Lawful :=
  Sodium.lawful_ofBoxes ⟨by decide, by decide, by decide⟩

/-- The key is the same, and the nonce ends in zeros. -/
theorem opensOnly_kept : FileEncryptor.OpensOnly FileEncryptor.keptSodium
    FileEncryptor.helloEncryptor FileEncryptor.helloEncryptor FileEncryptor.keptDraws
    (str "hello") where
  dek kek kek' h h' hne := absurd (Option.some.inj (h'.symm.trans h)) hne
  file _ _ hne := absurd (by decide) hne

def keptFile : StoredFile :=
  ⟨str "hello", some (FileEncryptor.helloEncryptor, FileEncryptor.keptDraws)⟩

theorem cipherHolds_kept {st : ChunkStore}
    (h : (st.stored = none ∨ st.stored = some keptFile) ∧
      (st.encryptor = none ∨ st.encryptor = some FileEncryptor.helloEncryptor)) (c : ChunkCall) :
    CipherHolds FileEncryptor.keptSodium st c := by
  intro file fe d fe' hfile hsealed hfe'
  obtain ⟨hs, he⟩ := h
  rw [hfile] at hs
  rw [hfe'] at he
  obtain rfl := Option.some.inj (hs.resolve_left (by simp))
  obtain rfl := Option.some.inj (he.resolve_left (by simp))
  cases hsealed
  exact opensOnly_kept

theorem readAsStored_kept {st : ChunkStore} {c : ChunkCall}
    (h : c = .decryptAndGetChunk →
      st.stored = some keptFile ∧ FileStore.encryptionEnabled st.encryptor = true) :
    ReadAsStored FileEncryptor.keptSodium (str "f") st c := by
  intro hc row file _ _ hfile
  obtain ⟨hkept, hon⟩ := h hc
  obtain rfl := Option.some.inj (hkept.symm.trans hfile)
  exact hon

theorem file_returned_kept :
    AllSteps (fun st => step FileEncryptor.keptSodium (str "f") st)
      (ReturnsStored FileEncryptor.keptSodium (str "f")) (start oneFile)
      (readAfter fileKeyHex) := by
  refine file_returned _ lawful_keptSodium (str "f") oneFile (by decide) (readAfter fileKeyHex)
    (.mono ?_ fun _ c h => cipherHolds_kept h c) (.mono ?_ fun _ _ h => readAsStored_kept h)
  all_goals decide +kernel

/-- The key is not in the configuration any more: the encrypted file is returned. -/
theorem not_returnsStored_lostKey :
    ¬ ∀ (sodium : Sodium) (fileId : Str) (db : Database) (calls : List ChunkCall),
      sodium.Lawful → FileStore.getChunk db fileId 0 = none →
      AllSteps (fun st => step sodium fileId st) (CipherHolds sodium) (start db) calls →
      AllSteps (fun st => step sodium fileId st) (ReturnsStored sodium fileId) (start db)
        calls := by
  intro hall
  have hcipher : AllSteps (fun st => step FileEncryptor.keptSodium (str "f") st)
      (CipherHolds FileEncryptor.keptSodium) (start oneFile) (readAfter []) := by
    refine .mono ?_ fun _ c h => cipherHolds_kept h c
    decide +kernel
  have hreturned : (final (fun st => step FileEncryptor.keptSodium (str "f") st) (start oneFile)
      ((readAfter []).take 3)).returned FileEncryptor.keptSodium (str "f") =
        .ok (some (FileEncryptor.keptFile 5)) := by
    decide +kernel
  have hstored : (final (fun st => step FileEncryptor.keptSodium (str "f") st) (start oneFile)
      ((readAfter []).take 3)).stored = some keptFile := by
    decide +kernel
  have h := (hall FileEncryptor.keptSodium (str "f") oneFile (readAfter []) lawful_keptSodium
    (by decide) hcipher).after 3 (by decide) rfl
  rw [hreturned] at h
  rcases h with h | ⟨file, hfile, h⟩
  · cases h
  · obtain rfl := Option.some.inj (hstored.symm.trans hfile)
    exact absurd h (by decide)

end ChunkStore

end Ircord

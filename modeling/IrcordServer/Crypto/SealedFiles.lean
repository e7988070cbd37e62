import IrcordServer.Crypto.FileEncryptor

/-!
# What `decrypt` makes of an encrypted file

`encrypt` draws a nonce of 24 bytes and keeps the first 12 of them; `decrypt` puts zeros in the
place of the others.  It returns the file exactly when the others were zeros.
-/

namespace Ircord

namespace FileEncryptor

variable {sodium : Sodium} {fe : FileEncryptor} {d : Draws} {key : EncryptedKey}
  {plaintext blob : Bytes}

/-! ## The encrypted key -/

theorem length_serializeEncryptedKey (key : EncryptedKey) :
    (serializeEncryptedKey key).length = ivSize + tagSize + 4 + key.ciphertext.length := by
  unfold serializeEncryptedKey
  rw [List.length_append, List.length_append, List.length_append, key.iv.2, key.tag.2,
    (Octets.ofNat 4 _).2, ← add_assoc, ← add_assoc]

/-- What follows a serialized key is not read. -/
theorem deserialize_serialize_append (h : key.ciphertext.length < 256 ^ 4) (trailing : Bytes) :
    deserializeEncryptedKey (serializeEncryptedKey key ++ trailing) = some key := by
  have hlength : (serializeEncryptedKey key ++ trailing).length =
      ivSize + tagSize + 4 + key.ciphertext.length + trailing.length := by
    rw [List.length_append, length_serializeEncryptedKey]
  have hlen : Octets.ofLittleEndian (Octets.ofNat 4 key.ciphertext.length).1 =
      key.ciphertext.length := by
    rw [Octets.ofLittleEndian_ofNat, Nat.mod_eq_of_lt h]
  unfold deserializeEncryptedKey
  dsimp only
  rw [if_neg (by rw [hlength]; omega)]
  simp only [hlength]
  unfold serializeEncryptedKey
  simp only [List.append_assoc, Octets.drop_append, Octets.copy_append, hlen]
  rw [if_neg (by omega), List.take_left]

theorem deserialize_serialize_encryptedKey (h : key.ciphertext.length < 256 ^ 4) :
    deserializeEncryptedKey (serializeEncryptedKey key) = some key := by
  rw [← List.append_nil (serializeEncryptedKey key)]
  exact deserialize_serialize_append h []

theorem length_encryptDek (hsodium : sodium.Lawful) {dek : Octets dekSize}
    (h : encryptDek sodium fe d dek.1 = some key) : key.ciphertext.length = 80 := by
  obtain ⟨kek, -, h⟩ := Option.bind_eq_some_iff.1 h
  cases h
  rw [List.length_append, hsodium.length_easy, d.dekSalt.2, dek.2]
  rfl

/-- The IV of the encrypted key is all that its nonce is made of. -/
theorem decryptDek_encryptDek (hsodium : sodium.Lawful) {dek : Octets dekSize}
    (h : encryptDek sodium fe d dek.1 = some key) : decryptDek sodium fe key = some dek.1 := by
  have hlength := length_encryptDek hsodium h
  obtain ⟨kek, hkek, h⟩ := Option.bind_eq_some_iff.1 h
  cases h
  unfold decryptDek
  rw [if_neg (by rw [hlength]; decide), Octets.copy_append, hkek, Octets.drop_append,
    Option.bind_eq_bind, Option.bind_some, hsodium.open_easy, Option.bind_eq_bind, Option.bind_some,
    Octets.copy_val]
  rfl

/-! ## The header -/

theorem length_serialize (header : EncryptedHeader) : header.serialize.length = headerSize := by
  unfold EncryptedHeader.serialize
  rw [List.length_append, List.length_append, List.length_append, List.length_append,
    header.salt.2, header.iv.2, header.tag.2, (Octets.ofNat 8 _).2, (Octets.ofNat 8 _).2]
  rfl

theorem parse_serialize (header : EncryptedHeader) (data : Bytes) :
    EncryptedHeader.parse (header.serialize ++ data) = { header with
      originalSize := header.originalSize % 256 ^ 8
      encryptedSize := header.encryptedSize % 256 ^ 8 } := by
  unfold EncryptedHeader.parse EncryptedHeader.serialize
  simp only [List.append_assoc, Octets.drop_append, Octets.copy_append, Octets.ofLittleEndian_ofNat]

/-! ## The file -/

/-- The nonce as `decrypt` has it. -/
def rebuiltNonce (nonce : Octets 24) : Octets 24 := nonceOfIv (.copy ivSize nonce.1)

theorem rebuiltNonce_eq_iff (nonce : Octets 24) :
    nonce = rebuiltNonce nonce ↔ nonce.1.drop ivSize = List.replicate 12 0 := by
  have hrebuilt : (rebuiltNonce nonce).1 = nonce.1.take ivSize ++ List.replicate 12 0 := by
    unfold rebuiltNonce nonceOfIv
    rw [Octets.val_copy_of_ge _ (by decide), Octets.val_copy_of_le (by rw [nonce.2]; decide)]
    rfl
  rw [Subtype.ext_iff, hrebuilt]
  nth_rewrite 1 [← List.take_append_drop ivSize nonce.1]
  exact List.append_right_inj _

/-- The header in front of the data `encrypted`. -/
def headerOf (d : Draws) (plaintext encrypted : Bytes) : EncryptedHeader :=
  { salt := d.salt
    iv := .copy ivSize d.nonce.1
    tag := .copy tagSize encrypted
    originalSize := plaintext.length
    encryptedSize := encrypted.length - macBytes }

theorem encrypt_eq_some (h : fe.encrypt sodium d plaintext = some (blob, key)) :
    fe.isReady = true ∧ encryptDek sodium fe d d.dek.1 = some key ∧
      ∃ fileKey encrypted, deriveKey sodium d.dek.1 d.salt = some fileKey ∧
        encrypted = sodium.secretboxEasy plaintext d.nonce fileKey ∧
        blob = (headerOf d plaintext encrypted).serialize ++ encrypted.drop macBytes := by
  unfold encrypt at h
  split_ifs at h with hready
  obtain ⟨key', hkey, h⟩ := Option.bind_eq_some_iff.1 h
  obtain ⟨fileKey, hfileKey, h⟩ := Option.bind_eq_some_iff.1 h
  cases h
  exact ⟨by simpa using hready, hkey, fileKey, _, hfileKey, rfl, rfl⟩

/-- The MAC moves into the header; what is added is the rest of the header. -/
theorem length_encrypt (hsodium : sodium.Lawful)
    (h : fe.encrypt sodium d plaintext = some (blob, key)) :
    blob.length = headerSize + plaintext.length := by
  obtain ⟨-, -, fileKey, encrypted, -, rfl, rfl⟩ := encrypt_eq_some h
  rw [List.length_append, length_serialize, List.length_drop, hsodium.length_easy,
    Nat.add_sub_cancel]

/-- `decrypt` opens the box that `encrypt` sealed, with the rebuilt nonce. -/
theorem decrypt_of_encrypt (hsodium : sodium.Lawful)
    (h : fe.encrypt sodium d plaintext = some (blob, key)) :
    ∃ fileKey, fe.decrypt sodium blob key =
      (sodium.secretboxOpenEasy (sodium.secretboxEasy plaintext d.nonce fileKey)
        (rebuiltNonce d.nonce) fileKey).map fun opened =>
          opened.takeD (plaintext.length % 256 ^ 8) 0 := by
  have hsize := length_encrypt hsodium h
  obtain ⟨hready, hkey, fileKey, encrypted, hfileKey, hencrypted, hblob⟩ := encrypt_eq_some h
  have hmac : macBytes ≤ encrypted.length := by
    rw [hencrypted, hsodium.length_easy]
    exact Nat.le_add_left _ _
  refine ⟨fileKey, ?_⟩
  unfold decrypt
  rw [if_neg (by rw [hready]; exact Bool.false_ne_true),
    if_neg (Nat.not_lt.2 (hsize ▸ Nat.le_add_right _ _)), hblob, ← hencrypted]
  simp only [parse_serialize, decryptDek_encryptDek hsodium hkey, Option.bind_eq_bind,
    Option.bind_some, headerOf, hfileKey, List.drop_left' (length_serialize _)]
  rw [Octets.val_copy_of_le hmac, List.take_append_drop, Option.map_eq_bind]
  rfl

/-- A file is decrypted, with the key as it was returned and as it is stored, if and only if the
part of the nonce that is not kept is zero.  The size of a `std::vector` is a number of 64 bits. -/
theorem decrypt_encrypt_iff (sodium : Sodium) (hsodium : sodium.Lawful) (fe : FileEncryptor)
    (d : Draws) (hrejects : sodium.Rejects d.nonce (rebuiltNonce d.nonce)) (plaintext : Bytes)
    (hsize : plaintext.length < 2 ^ 64) (blob : Bytes) (key : EncryptedKey)
    (h : fe.encrypt sodium d plaintext = some (blob, key)) :
    (fe.decrypt sodium blob key = some plaintext ∧
        (deserializeEncryptedKey (serializeEncryptedKey key)).bind (fe.decrypt sodium blob) =
          some plaintext) ↔
      d.nonce.1.drop ivSize = List.replicate 12 0 := by
  obtain ⟨fileKey, hdecrypt⟩ := decrypt_of_encrypt hsodium h
  have hkey : key.ciphertext.length < 256 ^ 4 := by
    rw [length_encryptDek hsodium (encrypt_eq_some h).2.1]
    decide
  rw [deserialize_serialize_encryptedKey hkey, Option.bind_some, and_self_iff,
    ← rebuiltNonce_eq_iff, hdecrypt]
  constructor
  · intro hopens
    by_contra hne
    rw [hrejects hne] at hopens
    cases hopens
  · intro hsame
    have hsize' : plaintext.length < 256 ^ 8 := hsize.trans_eq (by norm_num)
    rw [← hsame, hsodium.open_easy, Option.map_some, Nat.mod_eq_of_lt hsize']
    rw [List.takeD_eq_take 0 le_rfl, List.take_length]

end FileEncryptor

/-! ## A file that is not decrypted -/

/-- A box that `crypto_secretbox_easy` makes. -/
structure SealedBox where
  message : Bytes
  nonce : Octets 24
  key : Octets 32
  box : Bytes

namespace Sodium

/-- libsodium on some boxes and passwords.  Elsewhere the MAC is the front of the nonce, and nothing
is encrypted. -/
def ofBoxes (boxes : List SealedBox) (hashes : List (Bytes × Octets 16 × Octets 32)) : Sodium where
  secretboxEasy m n k :=
    ((boxes.find? fun b => b.message == m && b.nonce == n && b.key == k).map (·.box)).getD
      (n.1.take 16 ++ m)
  secretboxOpenEasy c n k :=
    ((boxes.find? fun b => b.box == c && b.nonce == n && b.key == k).map (·.message)).or
      (if c.take 16 = n.1.take 16 then some (c.drop 16) else none)
  pwhash password salt :=
    (hashes.find? fun h => h.1 == password && h.2.1 == salt).map (·.2.2)

/-- The boxes are told apart from each other and from those made elsewhere. -/
structure Distinct (boxes : List SealedBox) : Prop where
  length : ∀ b ∈ boxes, b.box.length = b.message.length + 16
  mac : ∀ b ∈ boxes, b.box.take 16 ≠ b.nonce.1.take 16
  message : ∀ b ∈ boxes, ∀ b' ∈ boxes, b.box = b'.box → b.message = b'.message

variable {boxes : List SealedBox} {hashes : List (Bytes × Octets 16 × Octets 32)}

theorem length_front {n : Octets 24} : (n.1.take 16).length = 16 := by
  rw [List.length_take, n.2]
  rfl

theorem lawful_ofBoxes (h : Distinct boxes) : (ofBoxes boxes hashes).Lawful where
  length_easy m n k := by
    unfold ofBoxes
    dsimp only
    cases hfind : boxes.find? fun b => b.message == m && b.nonce == n && b.key == k with
    | none =>
      rw [Option.map_none, Option.getD_none, List.length_append, length_front, Nat.add_comm]
    | some b =>
      have hb := List.find?_some hfind
      simp only [Bool.and_eq_true, beq_iff_eq] at hb
      rw [Option.map_some, Option.getD_some, h.length b (List.mem_of_find?_eq_some hfind), hb.1.1]
  open_easy m n k := by
    unfold ofBoxes
    dsimp only
    cases hfind : boxes.find? fun b => b.message == m && b.nonce == n && b.key == k with
    | none =>
      rw [Option.map_none, Option.getD_none]
      cases hopen : boxes.find? fun b =>
          b.box == n.1.take 16 ++ m && b.nonce == n && b.key == k with
      | none =>
        rw [Option.map_none, Option.none_or, if_pos (List.take_left' length_front),
          List.drop_left' length_front]
      | some b =>
        have hb := List.find?_some hopen
        simp only [Bool.and_eq_true, beq_iff_eq] at hb
        refine absurd ?_ (h.mac b (List.mem_of_find?_eq_some hopen))
        rw [hb.1.1, hb.1.2]
        exact List.take_left' length_front
    | some b =>
      have hb := List.find?_some hfind
      simp only [Bool.and_eq_true, beq_iff_eq] at hb
      rw [Option.map_some, Option.getD_some]
      cases hopen : boxes.find? fun b' => b'.box == b.box && b'.nonce == n && b'.key == k with
      | none =>
        have hnone := List.find?_eq_none.1 hopen b (List.mem_of_find?_eq_some hfind)
        simp [hb.1.2, hb.2] at hnone
      | some b' =>
        have hb' := List.find?_some hopen
        simp only [Bool.and_eq_true, beq_iff_eq] at hb'
        rw [Option.map_some, Option.some_or, h.message b' (List.mem_of_find?_eq_some hopen) b
          (List.mem_of_find?_eq_some hfind) hb'.1.1, hb.1.1]

theorem rejects_ofBoxes {n n' : Octets 24} (hfront : n.1.take 16 ≠ n'.1.take 16)
    (hnonce : ∀ b ∈ boxes, b.nonce ≠ n') (hmac : ∀ b ∈ boxes, b.box.take 16 ≠ n'.1.take 16) :
    (ofBoxes boxes hashes).Rejects n n' := by
  intro _ m k
  have hopen (c : Bytes) :
      boxes.find? (fun b => b.box == c && b.nonce == n' && b.key == k) = none := by
    refine List.find?_eq_none.2 fun b hb => ?_
    rw [beq_eq_false_iff_ne.2 (hnonce b hb), Bool.and_false, Bool.false_and]
    exact Bool.false_ne_true
  unfold ofBoxes
  dsimp only
  rw [hopen, Option.map_none, Option.none_or]
  cases hfind : boxes.find? fun b => b.message == m && b.nonce == n && b.key == k with
  | none =>
    rw [Option.map_none, Option.getD_none, List.take_left' length_front, if_neg hfront]
  | some b =>
    rw [Option.map_some, Option.getD_some, if_neg (hmac b (List.mem_of_find?_eq_some hfind))]

end Sodium

namespace FileEncryptor

/-- The array whose bytes are all the same. -/
def sameBytes (n : ℕ) (c : UInt8) : Octets n := ⟨List.replicate n c, List.length_replicate⟩

def helloDraws : Draws :=
  ⟨sameBytes _ 2, sameBytes _ 3, sameBytes _ 4, sameBytes _ 5, sameBytes _ 6, sameBytes _ 7⟩

/-- The key that is derived from the master key. -/
def helloKek : Octets 32 := .copy 32
  [125, 227, 159, 149, 96, 192, 227, 146, 148, 184, 202, 29, 38, 14, 120, 122, 153, 3, 9, 246, 217,
    35, 251, 89, 150, 101, 21, 66, 119, 198, 129, 91]

def helloFileKey : Octets 32 := .copy 32
  [219, 154, 97, 236, 13, 160, 249, 67, 242, 68, 170, 44, 20, 30, 107, 147, 126, 135, 106, 118, 72,
    171, 106, 13, 6, 255, 23, 100, 43, 64, 126, 18]

def helloBoxes : List SealedBox :=
  [⟨(sameBytes 32 2).1, nonceOfIv (sameBytes _ 3), helloKek,
      [45, 213, 128, 140, 29, 20, 243, 194, 238, 152, 96, 44, 86, 146, 154, 238, 155, 222, 62, 249,
        110, 0, 227, 255, 196, 225, 22, 220, 147, 153, 144, 149, 128, 56, 195, 170, 166, 125, 249,
        112, 40, 107, 131, 149, 143, 131, 144, 32]⟩,
    ⟨str "hello", sameBytes _ 7, helloFileKey,
      [54, 191, 223, 163, 164, 242, 182, 50, 76, 85, 98, 36, 55, 104, 4, 246, 18, 76, 224, 183,
        79]⟩]

def helloSodium : Sodium :=
  .ofBoxes helloBoxes [((sameBytes 32 1).1, sameBytes _ 5, helloKek),
    ((sameBytes 32 2).1, sameBytes _ 6, helloFileKey)]

def helloEncryptor : FileEncryptor := new ((List.replicate 32 (str "01")).flatten)

theorem lawful_helloSodium : helloSodium.Lawful :=
  Sodium.lawful_ofBoxes ⟨by decide, by decide, by decide⟩

theorem rejects_helloSodium :
    helloSodium.Rejects helloDraws.nonce (rebuiltNonce helloDraws.nonce) :=
  Sodium.rejects_ofBoxes (by decide) (by decide) (by decide)

/-- The file is encrypted, and is not decrypted. -/
theorem decrypt_fails_hello :
    helloSodium.Lawful ∧ helloSodium.Rejects helloDraws.nonce (rebuiltNonce helloDraws.nonce) ∧
      ∃ p ∈ helloEncryptor.encrypt helloSodium helloDraws (str "hello"),
        helloEncryptor.decrypt helloSodium p.1 p.2 = none :=
  ⟨lawful_helloSodium, rejects_helloSodium, by decide +kernel⟩

theorem decrypt_encrypt_iff_hello :
    ∃ blob key, helloEncryptor.encrypt helloSodium helloDraws (str "hello") = some (blob, key) ∧
      ((helloEncryptor.decrypt helloSodium blob key = some (str "hello") ∧
          (deserializeEncryptedKey (serializeEncryptedKey key)).bind
            (helloEncryptor.decrypt helloSodium blob) = some (str "hello")) ↔
        helloDraws.nonce.1.drop ivSize = List.replicate 12 0) := by
  have hencrypts : (helloEncryptor.encrypt helloSodium helloDraws (str "hello")).isSome = true := by
    decide +kernel
  obtain ⟨⟨blob, key⟩, h⟩ := Option.isSome_iff_exists.1 hencrypts
  exact ⟨blob, key, h, decrypt_encrypt_iff helloSodium lawful_helloSodium helloEncryptor helloDraws
    rejects_helloSodium (str "hello") (by decide) blob key h⟩

end FileEncryptor

end Ircord

import IrcordServer.Crypto.SealedFiles

/-!
# Keys as they are stored

The serialized key is two arrays of a fixed size, the length of the ciphertext in four bytes, and
the ciphertext.  `deserialize_encrypted_key` accepts what starts with one, and a key that was
encrypted under the master key is decrypted from it.
-/

namespace Ircord

namespace FileEncryptor

variable {sodium : Sodium} {fe : FileEncryptor} {d : Draws} {key : EncryptedKey} {data : Bytes}

/-- Whatever is accepted is a serialized key with something behind it. -/
theorem eq_append_of_deserialize (h : deserializeEncryptedKey data = some key) :
    key.ciphertext.length < 256 ^ 4 ∧ ∃ trailing, data = serializeEncryptedKey key ++ trailing := by
  unfold deserializeEncryptedKey at h
  split_ifs at h with hmin
  dsimp only at h
  generalize hlen : Octets.ofLittleEndian (Octets.copy 4 ((data.drop ivSize).drop tagSize)).1 = len
    at h
  split_ifs at h with hsize
  cases h
  have hfront : ivSize ≤ data.length := by omega
  have htag : tagSize ≤ (data.drop ivSize).length := by
    rw [List.length_drop]
    omega
  have hfour : 4 ≤ ((data.drop ivSize).drop tagSize).length := by
    rw [List.length_drop, List.length_drop]
    omega
  have hciphertext : ((((data.drop ivSize).drop tagSize).drop 4).take len).length = len := by
    rw [List.length_take, List.length_drop, List.length_drop, List.length_drop]
    omega
  -- the four bytes of the length are those that the length is serialized to
  have hbytes : (Octets.ofNat 4 len).1 = ((data.drop ivSize).drop tagSize).take 4 := by
    have hread := Octets.littleEndian_ofLittleEndian
      (Octets.copy 4 ((data.drop ivSize).drop tagSize)).1
    rw [hlen, (Octets.copy 4 _).2] at hread
    rw [← Octets.val_copy_of_le hfour, ← hread]
    rfl
  constructor
  · have hlt := Octets.ofLittleEndian_lt (Octets.copy 4 ((data.drop ivSize).drop tagSize)).1
    rw [hlen, (Octets.copy 4 _).2] at hlt
    rw [hciphertext]
    exact hlt
  · refine ⟨(((data.drop ivSize).drop tagSize).drop 4).drop len, ?_⟩
    unfold serializeEncryptedKey
    dsimp only
    rw [hciphertext, hbytes, Octets.val_copy_of_le hfront, Octets.val_copy_of_le htag]
    simp only [List.append_assoc, List.take_append_drop]

/-- Keys are read back as they were stored, whatever follows them; what is accepted starts with a
stored key; and unless the derivation fails, a file's key is what its encrypted key is decrypted
to. -/
theorem wrapped_keys_round_trip (sodium : Sodium) (hsodium : sodium.Lawful) :
    (∀ (key : EncryptedKey) (trailing : Bytes), key.ciphertext.length < 2 ^ 32 →
        deserializeEncryptedKey (serializeEncryptedKey key ++ trailing) = some key) ∧
      (∀ data : Bytes, (deserializeEncryptedKey data).isSome = true ↔
        ∃ (key : EncryptedKey) (trailing : Bytes), key.ciphertext.length < 2 ^ 32 ∧
          data = serializeEncryptedKey key ++ trailing) ∧
      ∀ (fe : FileEncryptor) (d : Draws) (dek : Octets dekSize),
        ((encryptDek sodium fe d dek.1).bind fun key =>
          (deserializeEncryptedKey (serializeEncryptedKey key)).bind fun key =>
            decryptDek sodium fe key) =
          (deriveKey sodium fe.masterKey d.dekSalt).map fun _ => dek.1 := by
  have hpow : 2 ^ 32 = 256 ^ 4 := by norm_num
  rw [hpow]
  refine ⟨fun key trailing h => deserialize_serialize_append h trailing, fun data => ?_,
    fun fe d dek => ?_⟩
  · constructor
    · intro h
      obtain ⟨key, hkey⟩ := Option.isSome_iff_exists.1 h
      obtain ⟨hlength, trailing, rfl⟩ := eq_append_of_deserialize hkey
      exact ⟨key, trailing, hlength, rfl⟩
    · rintro ⟨key, trailing, hlength, rfl⟩
      rw [deserialize_serialize_append hlength]
      rfl
  · cases hkey : encryptDek sodium fe d dek.1 with
    | none =>
      cases hkek : deriveKey sodium fe.masterKey d.dekSalt with
      | none => rfl
      | some kek =>
        unfold encryptDek at hkey
        rw [hkek] at hkey
        cases hkey
    | some key =>
      obtain ⟨kek, hkek, -⟩ := Option.bind_eq_some_iff.1 hkey
      have hlength : key.ciphertext.length < 256 ^ 4 := by
        rw [length_encryptDek hsodium hkey]
        decide
      rw [Option.bind_some, deserialize_serialize_encryptedKey hlength, Option.bind_some,
        decryptDek_encryptDek hsodium hkey, hkek]
      rfl

/-- The key of the file `hello`, as it is stored. -/
theorem wrapped_keys_round_trip_hello :
    (∃ key, encryptDek helloSodium helloEncryptor helloDraws helloDraws.dek.1 = some key ∧
        key.ciphertext.length = 80) ∧
      ((encryptDek helloSodium helloEncryptor helloDraws helloDraws.dek.1).bind fun key =>
        (deserializeEncryptedKey (serializeEncryptedKey key)).bind fun key =>
          decryptDek helloSodium helloEncryptor key) =
        (deriveKey helloSodium helloEncryptor.masterKey helloDraws.dekSalt).map fun _ =>
          helloDraws.dek.1 := by
  have hencrypts :
      (encryptDek helloSodium helloEncryptor helloDraws helloDraws.dek.1).isSome = true := by
    decide +kernel
  obtain ⟨key, hkey⟩ := Option.isSome_iff_exists.1 hencrypts
  exact ⟨⟨key, hkey, length_encryptDek lawful_helloSodium hkey⟩,
    (wrapped_keys_round_trip helloSodium lawful_helloSodium).2.2 helloEncryptor helloDraws
      helloDraws.dek⟩

end FileEncryptor

end Ircord

import IrcordServer.Crypto.SealedFiles

/-!
# Headers that are not what `encrypt` wrote

`decrypt` makes its buffer of the size that the header gives, which nothing authenticates: the MAC
covers the encrypted data, and the salt and the nonce are used for it.
-/

namespace Ircord

/-- What a call may throw. -/
inductive StdException
  | lengthError
  deriving DecidableEq

/-- `max_size` of a `std::vector` of bytes. -/
def maxVectorSize : ℕ := 2 ^ 63 - 1

/-- What `crypto_secretbox_open_easy` is called with. -/
structure OpenRequest where
  ciphertext : Bytes
  nonce : Octets 24
  key : Octets 32
  deriving DecidableEq

namespace Sodium

def opens (sodium : Sodium) (r : OpenRequest) : Option Bytes :=
  sodium.secretboxOpenEasy r.ciphertext r.nonce r.key

/-- On success the message is 16 bytes shorter than the box. -/
def OpensShorter (sodium : Sodium) : Prop :=
  ∀ r m, sodium.opens r = some m → m.length + 16 = r.ciphertext.length

end Sodium

namespace FileEncryptor

variable (sodium : Sodium) (fe : FileEncryptor)

/-! ## `decrypt` with its exception -/

/-- The part of `decrypt` before its buffers: what it will open. -/
def openRequest (ciphertextWithHeader : Bytes) (key : EncryptedKey) : Option OpenRequest :=
  if !fe.isReady then none
  else if ciphertextWithHeader.length < headerSize then none
  else do
    let header := EncryptedHeader.parse ciphertextWithHeader
    let dek ← decryptDek sodium fe key
    let fileKey ← deriveKey sodium dek header.salt
    return ⟨header.tag.1 ++ ciphertextWithHeader.drop headerSize, nonceOfIv header.iv, fileKey⟩

/-- `decrypt`, and what the constructor of its buffer throws. -/
def decryptOrThrow (ciphertextWithHeader : Bytes) (key : EncryptedKey) :
    Except StdException (Option Bytes) :=
  match openRequest sodium fe ciphertextWithHeader key with
  | none => .ok none
  | some r =>
    let header := EncryptedHeader.parse ciphertextWithHeader
    if maxVectorSize < header.originalSize then .error .lengthError
    else .ok ((sodium.opens r).map fun opened => opened.takeD header.originalSize 0)

/-- The message that `crypto_secretbox_open_easy` authenticates. -/
def authenticated (ciphertextWithHeader : Bytes) (key : EncryptedKey) : Option Bytes :=
  (openRequest sodium fe ciphertextWithHeader key).bind sodium.opens

variable {sodium fe} {blob blob' : Bytes} {key : EncryptedKey} {p : Bytes}

theorem openRequest_eq_some_iff {r : OpenRequest} :
    openRequest sodium fe blob key = some r ↔
      fe.isReady = true ∧ headerSize ≤ blob.length ∧
        ∃ dek fileKey, decryptDek sodium fe key = some dek ∧
          deriveKey sodium dek (EncryptedHeader.parse blob).salt = some fileKey ∧
          r = ⟨(EncryptedHeader.parse blob).tag.1 ++ blob.drop headerSize,
            nonceOfIv (EncryptedHeader.parse blob).iv, fileKey⟩ := by
  unfold openRequest
  constructor
  · intro h
    split_ifs at h with hready hshort
    obtain ⟨dek, hdek, h⟩ := Option.bind_eq_some_iff.1 h
    obtain ⟨fileKey, hfileKey, h⟩ := Option.bind_eq_some_iff.1 h
    exact ⟨by simpa using hready, Nat.not_lt.1 hshort, dek, fileKey, hdek, hfileKey,
      (Option.some.inj h).symm⟩
  · rintro ⟨hready, hlong, dek, fileKey, hdek, hfileKey, rfl⟩
    rw [if_neg (by simp [hready]), if_neg (Nat.not_lt.2 hlong), hdek, Option.bind_eq_bind,
      Option.bind_some, hfileKey]
    rfl

/-- The bytes read as an encrypted file under the key: they have a header, and behind it a box that
opens, or the header has a size that no vector has. -/
def ReadsAsEncrypted (sodium : Sodium) (fe : FileEncryptor) (key : EncryptedKey) (data : Bytes) :
    Prop :=
  headerSize ≤ data.length ∧ ∃ dek fileKey, decryptDek sodium fe key = some dek ∧
    deriveKey sodium dek (EncryptedHeader.parse data).salt = some fileKey ∧
      (maxVectorSize < (EncryptedHeader.parse data).originalSize ∨
        sodium.secretboxOpenEasy ((EncryptedHeader.parse data).tag.1 ++ data.drop headerSize)
          (nonceOfIv (EncryptedHeader.parse data).iv) fileKey ≠ none)

theorem decryptOrThrow_of_not_readsAsEncrypted (h : ¬ ReadsAsEncrypted sodium fe key blob) :
    decryptOrThrow sodium fe blob key = .ok none := by
  unfold decryptOrThrow
  cases hr : openRequest sodium fe blob key with
  | none => rfl
  | some r =>
    obtain ⟨-, hlong, dek, fileKey, hdek, hfileKey, e⟩ := openRequest_eq_some_iff.1 hr
    have hsize : ¬ maxVectorSize < (EncryptedHeader.parse blob).originalSize := fun hsize =>
      h ⟨hlong, dek, fileKey, hdek, hfileKey, Or.inl hsize⟩
    have hclosed : sodium.opens r = none := by
      by_contra hopens
      rw [e] at hopens
      exact h ⟨hlong, dek, fileKey, hdek, hfileKey, Or.inr hopens⟩
    dsimp only
    rw [if_neg hsize, hclosed, Option.map_none]

/-- Without the exception it is `decrypt`. -/
theorem decryptOrThrow_of_size (h : (EncryptedHeader.parse blob).originalSize ≤ maxVectorSize) :
    decryptOrThrow sodium fe blob key = .ok (decrypt sodium fe blob key) := by
  unfold decryptOrThrow openRequest decrypt
  split_ifs
  · rfl
  · rfl
  · cases hdek : decryptDek sodium fe key with
    | none => rfl
    | some dek =>
      cases hfileKey : deriveKey sodium dek (EncryptedHeader.parse blob).salt with
      | none => simp [hfileKey]
      | some fileKey =>
        simp only [hfileKey, Option.bind_eq_bind, Option.bind_some, if_neg (Nat.not_lt.2 h)]
        exact congrArg Except.ok Option.map_eq_bind

theorem decryptOrThrow_eq_some (h : decryptOrThrow sodium fe blob key = .ok (some p)) :
    ∃ r opened, openRequest sodium fe blob key = some r ∧ sodium.opens r = some opened ∧
      (EncryptedHeader.parse blob).originalSize ≤ maxVectorSize ∧
      p = opened.takeD (EncryptedHeader.parse blob).originalSize 0 := by
  unfold decryptOrThrow at h
  cases hr : openRequest sodium fe blob key with
  | none =>
    rw [hr] at h
    cases h
  | some r =>
    rw [hr] at h
    dsimp only at h
    split_ifs at h with hsize
    obtain ⟨opened, hopened, e⟩ := Option.map_eq_some_iff.1 (Except.ok.inj h)
    exact ⟨r, opened, rfl, hopened, Nat.not_lt.1 hsize, e.symm⟩

theorem decryptOrThrow_of_opens {r : OpenRequest} {opened : Bytes}
    (hr : openRequest sodium fe blob key = some r) (hopened : sodium.opens r = some opened)
    (hsize : (EncryptedHeader.parse blob).originalSize ≤ maxVectorSize) :
    decryptOrThrow sodium fe blob key =
      .ok (some (opened.takeD (EncryptedHeader.parse blob).originalSize 0)) := by
  unfold decryptOrThrow
  rw [hr]
  dsimp only
  rw [if_neg (Nat.not_lt.2 hsize), hopened, Option.map_some]

theorem length_opened (hlength : sodium.OpensShorter) {r : OpenRequest} {opened : Bytes}
    (hr : openRequest sodium fe blob key = some r) (hopened : sodium.opens r = some opened) :
    opened.length + headerSize = blob.length := by
  obtain ⟨-, hle, dek, fileKey, -, -, rfl⟩ := openRequest_eq_some_iff.1 hr
  have h := hlength _ _ hopened
  rw [List.length_append, List.length_drop, (EncryptedHeader.parse blob).tag.2] at h
  have htag : tagSize = 16 := rfl
  omega

theorem nonceOfIv_injective : Function.Injective nonceOfIv := by
  intro iv iv' h
  have hval := congrArg Subtype.val h
  unfold nonceOfIv at hval
  rw [Octets.val_copy_of_ge _ (by decide), Octets.val_copy_of_ge _ (by decide)] at hval
  exact Subtype.ext (List.append_cancel_right hval)

/-! ## Other header bytes -/

/-- The tag, the IV or the file key is another one. -/
def Rebound (sodium : Sodium) (fe : FileEncryptor) (key : EncryptedKey)
    (header header' : EncryptedHeader) : Prop :=
  header'.tag ≠ header.tag ∨ header'.iv ≠ header.iv ∨
    (decryptDek sodium fe key).bind (fun dek => deriveKey sodium dek header'.salt) ≠
      (decryptDek sodium fe key).bind fun dek => deriveKey sodium dek header.salt

/-- With the same data behind the header, another request has another header. -/
theorem rebound_iff {r r' : OpenRequest} (hr : openRequest sodium fe blob key = some r)
    (hr' : openRequest sodium fe blob' key = some r')
    (hbody : blob'.drop headerSize = blob.drop headerSize) :
    Rebound sodium fe key (.parse blob) (.parse blob') ↔ r' ≠ r := by
  obtain ⟨-, -, dek, fileKey, hdek, hfileKey, rfl⟩ := openRequest_eq_some_iff.1 hr
  obtain ⟨-, -, dek', fileKey', hdek', hfileKey', rfl⟩ := openRequest_eq_some_iff.1 hr'
  obtain rfl : dek = dek' := Option.some.inj (hdek.symm.trans hdek')
  have htag : (EncryptedHeader.parse blob').tag.1 ++ blob.drop headerSize =
      (EncryptedHeader.parse blob).tag.1 ++ blob.drop headerSize ↔
        (EncryptedHeader.parse blob').tag = (EncryptedHeader.parse blob).tag := by
    rw [List.append_left_inj]
    exact Subtype.ext_iff.symm
  unfold Rebound
  rw [hdek, Option.bind_some, Option.bind_some, hfileKey, hfileKey', hbody, ne_eq, ne_eq, ne_eq,
    ne_eq, OpenRequest.mk.injEq, htag, nonceOfIv_injective.eq_iff, Option.some.injEq]
  tauto

/-- Where the cipher sees nothing new, the request is the same. -/
theorem openRequest_of_not_rebound {r : OpenRequest} (hr : openRequest sodium fe blob key = some r)
    (hlong : headerSize ≤ blob'.length) (hbody : blob'.drop headerSize = blob.drop headerSize)
    (hkept : ¬ Rebound sodium fe key (.parse blob) (.parse blob')) :
    openRequest sodium fe blob' key = some r := by
  obtain ⟨hready, -, dek, fileKey, hdek, hfileKey, rfl⟩ := openRequest_eq_some_iff.1 hr
  unfold Rebound at hkept
  push Not at hkept
  obtain ⟨htag, hiv, hkey⟩ := hkept
  rw [hdek, Option.bind_some, Option.bind_some, hfileKey] at hkey
  refine openRequest_eq_some_iff.2 ⟨hready, hlong, dek, fileKey, hdek, hkey, ?_⟩
  rw [htag, hiv, hbody]

/-- What is promised of a blob that decrypts to `p`, and of one that has other bytes in its
header. -/
structure Sound (sodium : Sodium) (fe : FileEncryptor) (key : EncryptedKey) (blob blob' p : Bytes) :
    Prop where
  message : authenticated sodium fe blob key = some p
  length : p.length + headerSize = blob.length
  buffer : (EncryptedHeader.parse blob).originalSize + headerSize = blob.length
  tampered : ∀ p', decryptOrThrow sodium fe blob' key = .ok (some p') → p' = p

/-- The header gives the size of the message, and what is changed in it changes that size only when
there is no such vector, or together with something that the cipher sees. -/
def SizeHonest (sodium : Sodium) (fe : FileEncryptor) (key : EncryptedKey)
    (blob blob' : Bytes) : Prop :=
  (EncryptedHeader.parse blob).originalSize + headerSize = blob.length ∧
    ((EncryptedHeader.parse blob').originalSize = (EncryptedHeader.parse blob).originalSize ∨
      maxVectorSize < (EncryptedHeader.parse blob').originalSize ∨
      Rebound sodium fe key (.parse blob) (.parse blob'))

/-- A changed box does not open, when nobody has forged it. -/
theorem decrypt_sound_iff (hlength : sodium.OpensShorter)
    (hforged : ∀ r r', openRequest sodium fe blob key = some r →
      openRequest sodium fe blob' key = some r' → r' ≠ r → sodium.opens r' = none)
    (hlong : headerSize ≤ blob'.length) (hbody : blob'.drop headerSize = blob.drop headerSize)
    (h : decryptOrThrow sodium fe blob key = .ok (some p)) :
    Sound sodium fe key blob blob' p ↔ SizeHonest sodium fe key blob blob' := by
  obtain ⟨r, opened, hr, hopened, hsize, hp⟩ := decryptOrThrow_eq_some h
  have hopenedLength := length_opened hlength hr hopened
  constructor
  · intro hsound
    refine ⟨hsound.buffer, ?_⟩
    by_contra hno
    push Not at hno
    obtain ⟨hsizes, hsize', hkept⟩ := hno
    have hr' := openRequest_of_not_rebound hr hlong hbody hkept
    have hother := hsound.tampered _ (decryptOrThrow_of_opens hr' hopened hsize')
    have hlengths := congrArg List.length (hother.trans hp)
    rw [List.takeD_length, List.takeD_length] at hlengths
    exact hsizes hlengths
  · rintro ⟨hbuffer, hchanged⟩
    have hfull : p = opened := by
      rw [hp, show (EncryptedHeader.parse blob).originalSize = opened.length by omega,
        List.takeD_eq_take 0 le_rfl, List.take_length]
    refine ⟨?_, by rw [hfull]; exact hopenedLength, hbuffer, fun p' hp' => ?_⟩
    · rw [authenticated, hr, Option.bind_some, hopened, hfull]
    · obtain ⟨r', opened', hr', hopened', hsize', e⟩ := decryptOrThrow_eq_some hp'
      have hsame : r' = r := by
        by_contra hne
        rw [hforged r r' hr hr' hne] at hopened'
        cases hopened'
      have hkept : ¬ Rebound sodium fe key (.parse blob) (.parse blob') :=
        fun hrebound => (rebound_iff hr hr' hbody).1 hrebound hsame
      have hsizes : (EncryptedHeader.parse blob').originalSize =
          (EncryptedHeader.parse blob).originalSize := by
        rcases hchanged with e | hlarge | hrebound
        · exact e
        · exact absurd hsize' (Nat.not_le.2 hlarge)
        · exact absurd hrebound hkept
      rw [hsame, hopened] at hopened'
      rw [e, hp, ← Option.some.inj hopened', hsizes]

end FileEncryptor

theorem Sodium.opensShorter_ofBoxes {boxes : List SealedBox}
    {hashes : List (Bytes × Octets 16 × Octets 32)} (h : Distinct boxes) :
    (ofBoxes boxes hashes).OpensShorter := by
  intro r m hopens
  have hopens' : ((boxes.find? fun b =>
      b.box == r.ciphertext && b.nonce == r.nonce && b.key == r.key).map (·.message)).or
      (if r.ciphertext.take 16 = r.nonce.1.take 16 then some (r.ciphertext.drop 16) else none) =
        some m := hopens
  cases hfind : boxes.find? fun b =>
      b.box == r.ciphertext && b.nonce == r.nonce && b.key == r.key with
  | some b =>
    have hb := List.find?_some hfind
    simp only [Bool.and_eq_true, beq_iff_eq] at hb
    rw [hfind, Option.map_some, Option.some_or] at hopens'
    obtain rfl := Option.some.inj hopens'
    rw [← hb.1.1]
    exact (h.length b (List.mem_of_find?_eq_some hfind)).symm
  | none =>
    rw [hfind, Option.map_none, Option.none_or] at hopens'
    split_ifs at hopens' with hmac
    obtain rfl := Option.some.inj hopens'
    have hfront := congrArg List.length hmac
    rw [length_front, List.length_take] at hfront
    rw [List.length_drop]
    omega

namespace FileEncryptor

/-! ## A size that is not the size of the file -/

/-- The box of a file whose nonce ends in zeros. -/
def keptBox : SealedBox :=
  ⟨str "hello", nonceOfIv (sameBytes _ 7), helloFileKey,
    [157, 255, 119, 171, 191, 181, 71, 99, 114, 123, 229, 160, 102, 4, 71, 16, 221, 107, 186, 149,
      130]⟩

def keptSodium : Sodium :=
  .ofBoxes (helloBoxes.take 1 ++ [keptBox]) [((sameBytes 32 1).1, sameBytes _ 5, helloKek),
    ((sameBytes 32 2).1, sameBytes _ 6, helloFileKey)]

def keptDraws : Draws := { helloDraws with nonce := keptBox.nonce }

/-- What is stored of the file, with a size in the header. -/
def keptFile (originalSize : ℕ) : Bytes :=
  EncryptedHeader.serialize
      ⟨sameBytes _ 6, sameBytes _ 7, .copy tagSize keptBox.box, originalSize, 5⟩ ++
    keptBox.box.drop macBytes

def keptKey : EncryptedKey :=
  ⟨(sameBytes 32 5).1 ++ (helloBoxes.map (·.box)).headD [], sameBytes _ 3, sameBytes _ 4⟩

theorem opensShorter_keptSodium : keptSodium.OpensShorter :=
  Sodium.opensShorter_ofBoxes ⟨by decide, by decide, by decide⟩

/-- The size is not part of the request. -/
theorem forged_keptFile (r r' : OpenRequest)
    (hr : openRequest keptSodium helloEncryptor (keptFile 5) keptKey = some r)
    (hr' : openRequest keptSodium helloEncryptor (keptFile 6) keptKey = some r') (hne : r' ≠ r) :
    keptSodium.opens r' = none := by
  have hsame : openRequest keptSodium helloEncryptor (keptFile 5) keptKey =
      openRequest keptSodium helloEncryptor (keptFile 6) keptKey := by
    decide +kernel
  exact absurd (Option.some.inj (hr'.symm.trans (hsame.symm.trans hr))) hne

theorem decrypt_keptFile :
    helloEncryptor.encrypt keptSodium keptDraws (str "hello") = some (keptFile 5, keptKey) ∧
      decryptOrThrow keptSodium helloEncryptor (keptFile 5) keptKey = .ok (some (str "hello")) ∧
      decryptOrThrow keptSodium helloEncryptor (keptFile 6) keptKey =
        .ok (some (str "hello" ++ [0])) := by
  decide +kernel

theorem decrypt_sound_iff_keptFile :
    Sound keptSodium helloEncryptor keptKey (keptFile 5) (keptFile 6) (str "hello") ↔
      SizeHonest keptSodium helloEncryptor keptKey (keptFile 5) (keptFile 6) :=
  decrypt_sound_iff opensShorter_keptSodium forged_keptFile (by decide) (by decide)
    decrypt_keptFile.2.1

/-- With another size in the header, the file has another byte. -/
theorem not_sound_keptFile :
    ¬ ∀ (sodium : Sodium) (fe : FileEncryptor) (key : EncryptedKey) (blob blob' p : Bytes),
      sodium.OpensShorter →
      (∀ r r', openRequest sodium fe blob key = some r →
        openRequest sodium fe blob' key = some r' → r' ≠ r → sodium.opens r' = none) →
      headerSize ≤ blob'.length → blob'.drop headerSize = blob.drop headerSize →
      decryptOrThrow sodium fe blob key = .ok (some p) → Sound sodium fe key blob blob' p := by
  intro hall
  have hsound := hall keptSodium helloEncryptor keptKey (keptFile 5) (keptFile 6) (str "hello")
    opensShorter_keptSodium forged_keptFile (by decide) (by decide) decrypt_keptFile.2.1
  exact absurd (hsound.tampered _ decrypt_keptFile.2.2) (by decide)

end FileEncryptor

end Ircord

import IrcordServer.Octets
import IrcordServer.Text

/-!
# Encryption of stored files

`crypto/file_encryptor.cpp`: a file is encrypted under a key of its own, and that key under the
master key.  The functions of libsodium are parameters.
-/

namespace Ircord

/-- What the encryptor calls in libsodium. -/
structure Sodium where
  /-- `crypto_secretbox_easy`: the MAC of 16 bytes, and the encrypted message behind it. -/
  secretboxEasy : Bytes → Octets 24 → Octets 32 → Bytes
  secretboxOpenEasy : Bytes → Octets 24 → Octets 32 → Option Bytes
  /-- `crypto_pwhash` with the limits for interactive use, of a password and a salt. -/
  pwhash : Bytes → Octets 16 → Option (Octets 32)

namespace Sodium

/-- A box has 16 bytes more than its message, and opens under its key and nonce. -/
structure Lawful (sodium : Sodium) : Prop where
  length_easy : ∀ m n k, (sodium.secretboxEasy m n k).length = m.length + 16
  open_easy : ∀ m n k, sodium.secretboxOpenEasy (sodium.secretboxEasy m n k) n k = some m

/-- What was sealed under the nonce `n` does not open under another one, `n'`. -/
def Rejects (sodium : Sodium) (n n' : Octets 24) : Prop :=
  n ≠ n' → ∀ m k, sodium.secretboxOpenEasy (sodium.secretboxEasy m n k) n' k = none

end Sodium

structure FileEncryptor where
  masterKey : Bytes
  deriving DecidableEq

namespace FileEncryptor

abbrev masterKeySize : ℕ := 32

abbrev dekSize : ℕ := 32

abbrev ivSize : ℕ := 12

abbrev tagSize : ℕ := 16

abbrev saltSize : ℕ := 32

abbrev macBytes : ℕ := 16

structure EncryptedHeader where
  salt : Octets saltSize
  iv : Octets ivSize
  tag : Octets tagSize
  originalSize : ℕ
  encryptedSize : ℕ
  deriving DecidableEq

structure EncryptedKey where
  ciphertext : Bytes
  iv : Octets ivSize
  tag : Octets tagSize
  deriving DecidableEq

/-- What one call of `encrypt` gets from `randombytes_buf`, but for the IV of the header, which the
nonce overwrites. -/
structure Draws where
  dek : Octets dekSize
  dekIv : Octets ivSize
  dekTag : Octets tagSize
  dekSalt : Octets saltSize
  salt : Octets saltSize
  nonce : Octets 24

/-! ## The master key -/

def hexDigit (c : UInt8) : Option ℤ :=
  if isDigit c then some (c.toNat - 48)
  else if 97 ≤ tolower c && tolower c ≤ 102 then some ((tolower c).toNat - 87)
  else none

/-- `std::stoi` of two characters with base 16: blanks and a sign may come before the digits, and
what follows them is not read. -/
def stoiHex (a b : UInt8) : Option ℤ :=
  match hexDigit a, hexDigit b with
  | some x, some y => some (16 * x + y)
  | some x, none => some x
  | none, some y =>
    if isSpace a || a == ch '+' then some y else if a == ch '-' then some (-y) else none
  | none, none => none

def hexToBytes : Str → Option Bytes
  | [] => some []
  | [_] => none
  | a :: b :: hex => do
    let byte ← stoiHex a b
    let bytes ← hexToBytes hex
    return UInt8.ofInt byte :: bytes

/-- The constructor. -/
def new (masterKeyHex : Str) : FileEncryptor :=
  match hexToBytes masterKeyHex with
  | none => ⟨[]⟩
  | some keyBytes => if keyBytes.length ≠ masterKeySize then ⟨[]⟩ else ⟨keyBytes⟩

variable (sodium : Sodium) (fe : FileEncryptor)

def isReady : Bool := !fe.masterKey.isEmpty

/-- libsodium reads the first 16 bytes of the salt. -/
def deriveKey (masterKey : Bytes) (salt : Octets saltSize) : Option (Octets 32) :=
  sodium.pwhash masterKey (.copy 16 salt.1)

/-- A nonce of zeros, with the IV copied to its front. -/
def nonceOfIv (iv : Octets ivSize) : Octets 24 := .copy 24 iv.1

/-! ## The key of a file -/

def encryptDek (d : Draws) (dek : Bytes) : Option EncryptedKey := do
  let kek ← deriveKey sodium fe.masterKey d.dekSalt
  return ⟨d.dekSalt.1 ++ sodium.secretboxEasy dek (nonceOfIv d.dekIv) kek, d.dekIv, d.dekTag⟩

def decryptDek (key : EncryptedKey) : Option Bytes :=
  if key.ciphertext.length < saltSize + dekSize + macBytes then none
  else do
    let kek ← deriveKey sodium fe.masterKey (.copy saltSize key.ciphertext)
    let opened ← sodium.secretboxOpenEasy (key.ciphertext.drop saltSize) (nonceOfIv key.iv) kek
    return (Octets.copy dekSize opened).1

def serializeEncryptedKey (key : EncryptedKey) : Bytes :=
  key.iv.1 ++ (key.tag.1 ++ ((Octets.ofNat 4 key.ciphertext.length).1 ++ key.ciphertext))

def deserializeEncryptedKey (data : Bytes) : Option EncryptedKey :=
  if data.length < ivSize + tagSize + 4 then none
  else
    let tagged := data.drop ivSize
    let sized := tagged.drop tagSize
    let len := Octets.ofLittleEndian (Octets.copy 4 sized).1
    if data.length < ivSize + tagSize + 4 + len then none
    else some ⟨(sized.drop 4).take len, .copy ivSize data, .copy tagSize tagged⟩

/-! ## Files -/

abbrev headerSize : ℕ := saltSize + ivSize + tagSize + 16

def EncryptedHeader.serialize (header : EncryptedHeader) : Bytes :=
  header.salt.1 ++ (header.iv.1 ++ (header.tag.1 ++
    ((Octets.ofNat 8 header.originalSize).1 ++ (Octets.ofNat 8 header.encryptedSize).1)))

def EncryptedHeader.parse (data : Bytes) : EncryptedHeader :=
  let data₁ := data.drop saltSize
  let data₂ := data₁.drop ivSize
  let data₃ := data₂.drop tagSize
  { salt := .copy saltSize data
    iv := .copy ivSize data₁
    tag := .copy tagSize data₂
    originalSize := Octets.ofLittleEndian (Octets.copy 8 data₃).1
    encryptedSize := Octets.ofLittleEndian (Octets.copy 8 (data₃.drop 8)).1 }

/-- The header, the encrypted data behind it, and the encrypted key. -/
def encrypt (d : Draws) (plaintext : Bytes) : Option (Bytes × EncryptedKey) :=
  if !fe.isReady then none
  else do
    let key ← encryptDek sodium fe d d.dek.1
    let fileKey ← deriveKey sodium d.dek.1 d.salt
    let encrypted := sodium.secretboxEasy plaintext d.nonce fileKey
    let header : EncryptedHeader :=
      { salt := d.salt
        iv := .copy ivSize d.nonce.1
        tag := .copy tagSize encrypted
        originalSize := plaintext.length
        encryptedSize := encrypted.length - macBytes }
    return (header.serialize ++ encrypted.drop macBytes, key)

def decrypt (ciphertextWithHeader : Bytes) (key : EncryptedKey) : Option Bytes :=
  if !fe.isReady then none
  else if ciphertextWithHeader.length < headerSize then none
  else do
    let header := EncryptedHeader.parse ciphertextWithHeader
    let dek ← decryptDek sodium fe key
    let fileKey ← deriveKey sodium dek header.salt
    let fullCiphertext := header.tag.1 ++ ciphertextWithHeader.drop headerSize
    let opened ← sodium.secretboxOpenEasy fullCiphertext (nonceOfIv header.iv) fileKey
    -- the buffer has the size that the header says
    return opened.takeD header.originalSize 0

end FileEncryptor

end Ircord

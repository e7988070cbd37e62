import IrcordServer.Admin.ReservedIdentity
import IrcordServer.Db.Database

/-!
# The user store

`db/user_store.cpp`.  What libsodium decides is a parameter (`Crypto`), and the salted hash that
`crypto_pwhash_str` draws is an input.
-/

open Container Sql

namespace Ircord

/-- The verdicts of libsodium. -/
structure Crypto where
  /-- `crypto_sign_verify_detached(signature, message, public key) == 0` -/
  signVerifyDetached : Bytes → Bytes → Bytes → Bool
  /-- `crypto_pwhash_str_verify(stored hash, password) == 0` -/
  pwhashStrVerify : Bytes → Str → Bool

/-- The verdicts when only these signatures (signature, message, public key) were ever made. -/
def Crypto.ofSignatures (signed : List (Bytes × Bytes × Bytes)) : Crypto where
  signVerifyDetached signature message key := signed.contains (signature, message, key)
  pwhashStrVerify _ _ := false

/-- An output of `crypto_pwhash_str`, of `crypto_pwhash_STRBYTES` bytes. -/
abbrev PwHash := { b : Bytes // b.length = 128 }

structure User where
  userId : Str
  identityPub : Bytes
  createdAt : ℤ
  deriving DecidableEq

structure SignedPrekey where
  spkPub : Bytes
  spkSig : Bytes
  deriving DecidableEq

namespace UserStore

/-- The characters that `validate_user_id` allows. -/
def isUserIdChar (c : UInt8) : Bool := isAlnum c || c == ch '_' || c == ch '-'

/-- `validate_user_id`: what is wrong with a user id, empty if nothing is. -/
def validateUserId (additionalReserved : List (Str → Bool)) (userId : Str) : Str :=
  if userId.length < 2 then str "User ID must be at least 2 characters"
  else if userId.length > 32 then str "User ID must be at most 32 characters"
  else if !userId.all isUserIdChar then
    str "User ID can only contain letters, numbers, underscores, and hyphens"
  else if ReservedIdentity.isReserved additionalReserved userId then
    str "This user ID is reserved and cannot be used"
  else if ReservedIdentity.containsUnicodeHomoglyphs userId then
    str "User ID contains unsupported characters"
  else []

/-- The test for homoglyphs rejects no id that got that far. -/
theorem containsUnicodeHomoglyphs_eq_false {userId : Str} (h : userId.all isUserIdChar = true) :
    ReservedIdentity.containsUnicodeHomoglyphs userId = false := by
  have hchar : ∀ c, isUserIdChar c = true →
      ReservedIdentity.containsUnicodeHomoglyphs [c] = false := forall_byte (by decide +kernel)
  refine List.any_eq_false.2 fun c hc => ?_
  have hascii := hchar c (List.all_eq_true.1 h c hc)
  exact List.any_eq_false.1 hascii c List.mem_cons_self

/-- The ids that are accepted. -/
theorem validateUserId_eq_nil {additionalReserved : List (Str → Bool)} {userId : Str} :
    validateUserId additionalReserved userId = [] ↔
      2 ≤ userId.length ∧ userId.length ≤ 32 ∧ (∀ c ∈ userId, isUserIdChar c = true) ∧
        ReservedIdentity.isReserved additionalReserved userId = false := by
  have hmessage {message : String} (h : str message ≠ []) {p : Prop} (hp : ¬ p) :
      str message = [] ↔ p := iff_of_false h hp
  unfold validateUserId
  split_ifs with hshort hlong hchars hreserved hhomoglyphs
  · exact hmessage (by decide) fun h => absurd h.1 (Nat.not_le.2 hshort)
  · exact hmessage (by decide) fun h => absurd h.2.1 (Nat.not_le.2 hlong)
  · refine hmessage (by decide) fun h => ?_
    rw [List.all_eq_true.2 h.2.2.1] at hchars
    cases hchars
  · refine hmessage (by decide) fun h => ?_
    rw [h.2.2.2] at hreserved
    cases hreserved
  · rw [containsUnicodeHomoglyphs_eq_false (by simpa using hchars)] at hhomoglyphs
    cases hhomoglyphs
  · refine iff_of_true rfl ⟨by omega, by omega, ?_, Bool.eq_false_iff.2 hreserved⟩
    exact List.all_eq_true.1 (by simpa using hchars)

variable (db : Database)

def findById (userId : Str) : Option User :=
  (db.users.lookup userId).map fun row => ⟨userId, row.identityPub, row.createdAt⟩

def insert (user : User) : Except SqlError Database :=
  db.insertUser user.userId user.identityPub user.createdAt

/-- `update_identity_key`; `identity_pub` is `NOT NULL`. -/
def updateIdentityKey (userId : Str) (newIdentityPub : Bytes) : Except SqlError Database :=
  match bindBlob newIdentityPub with
  | none => .error ⟨str "NOT NULL constraint failed: users.identity_pub"⟩
  | some key => .ok (db.updateUser userId fun row => { row with identityPub := key })

def clearKeyMaterial (userId : Str) : Database :=
  (db.deleteSignedPrekeys (· == userId)).deleteOneTimePrekeys (·.userId == userId)

def upsertSignedPrekey (userId : Str) (spkPub spkSig : Bytes) (nowUnix : ℤ) :
    Except SqlError Database :=
  db.replaceSignedPrekey userId spkPub spkSig nowUnix

def getSignedPrekey (userId : Str) : Option SignedPrekey :=
  (db.signedPrekeys.lookup userId).map fun row => ⟨row.spkPub, row.spkSig⟩

def storeOpk (userId : Str) (opkPub : Bytes) : Except SqlError Database :=
  db.insertOneTimePrekey userId opkPub

/-- `consume_opk`: an unused row of the user, marked used; the empty key when there is none. -/
def consumeOpk (userId : Str) : Bytes × Database :=
  match db.oneTimePrekeys.rows.find? fun r => r.2.userId == userId && !r.2.used with
  | none => ([], db)
  | some (id, row) => (row.opkPub, db.markOneTimePrekeyUsed id)

/-- `set_password`; `hash` is what `crypto_pwhash_str` returned, `none` when it ran out of
memory. -/
def setPassword (userId : Str) (hash : Option PwHash) : Bool × Database :=
  match hash with
  | none => (false, db)
  | some hash => (true, db.updateUser userId fun row => { row with passwordHash := some hash.1 })

/-- The stored hash, absent when it is `NULL` or empty. -/
def storedHash (userId : Str) : Option Bytes :=
  (db.users.lookup userId).bind fun row => row.passwordHash.filter fun hash => !hash.isEmpty

def verifyPassword (crypto : Crypto) (userId password : Str) : Bool :=
  match storedHash db userId with
  | none => false
  | some hash => crypto.pwhashStrVerify hash password

def updatePassword (crypto : Crypto) (userId oldPassword : Str) (newHash : Option PwHash) :
    Bool × Database :=
  if !verifyPassword db crypto userId oldPassword then (false, db)
  else setPassword db userId newHash

def hasPassword (userId : Str) : Bool := (storedHash db userId).isSome

/-! ## The users table after each operation -/

variable {db} {db' : Database}

theorem findById_eq_none {userId : Str} :
    findById db userId = none ↔ db.users.lookup userId = none := by
  rw [findById, Option.map_eq_none_iff]

theorem findById_eq_some {userId : Str} {user : User} (h : findById db userId = some user) :
    ∃ row, db.users.lookup userId = some row ∧ user.identityPub = row.identityPub := by
  obtain ⟨row, hrow, rfl⟩ := Option.map_eq_some_iff.1 h
  exact ⟨row, hrow, rfl⟩

theorem lookup_users_updateIdentityKey {userId : Str} {key : Bytes}
    (h : updateIdentityKey db userId key = .ok db') (u : Str) :
    db'.users.lookup u =
      if u = userId then (db.users.lookup u).map fun row => { row with identityPub := key }
      else db.users.lookup u := by
  unfold updateIdentityKey bindBlob at h
  split_ifs at h
  all_goals simp only at h
  cases h
  exact Database.lookup_users_updateUser _ _ _ _

@[simp] theorem users_consumeOpk (userId : Str) : (consumeOpk db userId).2.users = db.users := by
  unfold consumeOpk
  split <;> rfl

theorem lookup_users_setPassword (userId : Str) (hash : Option PwHash) (u : Str) :
    ((setPassword db userId hash).2.users.lookup u).map (·.identityPub) =
      (db.users.lookup u).map (·.identityPub) := by
  cases hash with
  | none => rfl
  | some hash =>
    show (Option.map _ ((Database.updateUser _ _ _).users.lookup u)) = _
    rw [Database.lookup_users_updateUser]
    split_ifs with hu
    · rw [Option.map_map]
      rfl
    · rfl

theorem updatePassword_of_false {crypto : Crypto} {userId oldPassword : Str}
    {hash : Option PwHash} (h : updatePassword db crypto userId oldPassword hash = (false, db')) :
    db' = db := by
  unfold updatePassword setPassword at h
  split_ifs at h
  · exact (Prod.mk.inj h).2.symm
  · cases hash with
    | none => exact (Prod.mk.inj h).2.symm
    | some hash => exact absurd (Prod.mk.inj h).1 (by decide)

theorem hasPassword_of_verifyPassword {crypto : Crypto} {userId password : Str}
    (h : verifyPassword db crypto userId password = true) :
    ∃ row hash, db.users.lookup userId = some row ∧ row.passwordHash = some hash ∧
      crypto.pwhashStrVerify hash password = true := by
  unfold verifyPassword storedHash at h
  split at h
  · cases h
  · rename_i hash hhash
    obtain ⟨row, hrow, hfilter⟩ := Option.bind_eq_some_iff.1 hhash
    exact ⟨row, hash, hrow, (Option.filter_eq_some_iff.1 hfilter).1, h⟩

/-! ## Identity keys -/

/-- The identity key in the row of a user. -/
def identityKey (db : Database) (userId : Str) : Option Bytes :=
  (db.users.lookup userId).map (·.identityPub)

/-- The same users with the same keys; only if `clears`, all users may be gone instead. -/
def KeysKept (clears : Prop) (db db' : Database) : Prop :=
  (∀ u, identityKey db' u = identityKey db u) ∨ clears ∧ ∀ u, identityKey db' u = none

section Keys

variable {clears clears' : Prop} {db'' : Database}

theorem identityKey_eq_some {u : Str} {key : Bytes} :
    identityKey db u = some key ↔ ∃ row, db.users.lookup u = some row ∧ row.identityPub = key :=
  Option.map_eq_some_iff

theorem keysKept_of_users_eq (h : db'.users = db.users) : KeysKept clears db db' :=
  Or.inl fun u => by rw [identityKey, identityKey, h]

theorem identityKey_of_keysKept (h : KeysKept False db db') (u : Str) :
    identityKey db' u = identityKey db u :=
  h.elim (· u) fun h => h.1.elim

theorem KeysKept.trans (h : KeysKept clears db db') (h' : KeysKept clears' db' db'')
    (hclears : clears' → clears) : KeysKept clears db db'' := by
  rcases h' with h' | ⟨hc, h'⟩
  · rcases h with h | ⟨hc, h⟩
    · exact Or.inl fun u => (h' u).trans (h u)
    · exact Or.inr ⟨hc, fun u => (h' u).trans (h u)⟩
  · exact Or.inr ⟨hclears hc, h'⟩

theorem KeysKept.mono (h : KeysKept clears db db') (hclears : clears → clears') :
    KeysKept clears' db db' :=
  h.imp id fun h => ⟨hclears h.1, h.2⟩

theorem keysKept_setPassword (userId : Str) (hash : Option PwHash) :
    KeysKept clears db (setPassword db userId hash).2 :=
  Or.inl fun u => lookup_users_setPassword userId hash u

theorem keysKept_updatePassword {crypto : Crypto} {userId oldPassword : Str}
    {hash : Option PwHash} {updated : Bool}
    (h : updatePassword db crypto userId oldPassword hash = (updated, db')) :
    KeysKept clears db db' := by
  have e : db' = (updatePassword db crypto userId oldPassword hash).2 := by rw [h]
  rw [e]
  unfold updatePassword
  split_ifs
  · exact keysKept_of_users_eq rfl
  · exact keysKept_setPassword userId hash

/-! ## Statements that succeed -/

theorem insert_ok {userId key : Bytes} {createdAt : ℤ} (hkey : key ≠ [])
    (hnew : db.users.lookup userId = none) :
    ∃ db', insert db ⟨userId, key, createdAt⟩ = .ok db' ∧
      ∀ u, identityKey db' u = if u = userId then some key else identityKey db u := by
  have hok : ∃ db', db.insertUser userId key createdAt = .ok db' := by
    unfold Database.insertUser
    rw [bindBlob_of_ne_nil hkey]
    dsimp only
    rw [if_neg fun hmem => AList.lookup_eq_none.1 hnew hmem]
    exact ⟨_, rfl⟩
  obtain ⟨db', hdb'⟩ := hok
  refine ⟨db', hdb', fun u => ?_⟩
  unfold identityKey
  rw [Database.lookup_users_insertUser db hdb']
  split_ifs <;> rfl

theorem updateIdentityKey_ok {userId key : Bytes} (hkey : key ≠ [])
    (hexists : userId ∈ db.users) :
    ∃ db', updateIdentityKey db userId key = .ok db' ∧
      ∀ u, identityKey db' u = if u = userId then some key else identityKey db u := by
  have hok : ∃ db', updateIdentityKey db userId key = .ok db' := by
    unfold updateIdentityKey
    rw [bindBlob_of_ne_nil hkey]
    exact ⟨_, rfl⟩
  obtain ⟨db', hdb'⟩ := hok
  refine ⟨db', hdb', fun u => ?_⟩
  unfold identityKey
  rw [lookup_users_updateIdentityKey hdb']
  split_ifs with hu
  · obtain ⟨row, hrow⟩ := UnorderedMap.mem_iff_lookup.1 hexists
    rw [hu, hrow]
    rfl
  · rfl

theorem upsertSignedPrekey_ok {userId : Str} {spkPub spkSig : Bytes} {nowUnix : ℤ}
    (hpub : spkPub ≠ []) (hsig : spkSig ≠ []) (hexists : userId ∈ db.users) :
    ∃ db', upsertSignedPrekey db userId spkPub spkSig nowUnix = .ok db' ∧
      db'.users = db.users := by
  have hok : ∃ db', db.replaceSignedPrekey userId spkPub spkSig nowUnix = .ok db' := by
    unfold Database.replaceSignedPrekey
    rw [bindBlob_of_ne_nil hpub, bindBlob_of_ne_nil hsig]
    dsimp only
    rw [dif_pos hexists]
    exact ⟨_, rfl⟩
  obtain ⟨db', hdb'⟩ := hok
  exact ⟨db', hdb', Database.users_replaceSignedPrekey db hdb'⟩

theorem mem_users_of_identityKey {u : Str} {key : Bytes} (h : identityKey db u = some key) :
    u ∈ db.users := by
  obtain ⟨row, hrow, -⟩ := identityKey_eq_some.1 h
  exact UnorderedMap.mem_iff_lookup.2 ⟨row, hrow⟩

end Keys

end UserStore

end Ircord

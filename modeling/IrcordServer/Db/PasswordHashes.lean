import IrcordServer.Db.KeyTables

/-!
# Stored password hashes

`set_password` is the only statement that stores a hash.  It does not look at the password: what is
asked of one is up to its callers.
-/

open Container

namespace Ircord

/-- A call of `set_password` that returns true: the user, the password and what `crypto_pwhash_str`
made of it. -/
structure PasswordSet where
  userId : Str
  password : Str
  hash : PwHash
  deriving DecidableEq

namespace UserStore

variable {db db' db'' : Database} {call : Option PasswordSet}

/-- The stored hashes after statements with at most one such call; without one, rows may go. -/
def HashesAfter (db : Database) (call : Option PasswordSet) (db' : Database) : Prop :=
  match call with
  | some c => ∀ u, storedHash db' u = if u = c.userId then some c.hash.1 else storedHash db u
  | none => ∀ u, storedHash db' u = storedHash db u ∨ storedHash db' u = none

theorem storedHash_of_users_eq (h : db'.users = db.users) (u : Str) :
    storedHash db' u = storedHash db u := by
  rw [storedHash, storedHash, h]

theorem hashesAfter_none (h : ∀ u, storedHash db' u = storedHash db u) :
    HashesAfter db none db' :=
  fun u => Or.inl (h u)

/-- Statements before the call that keep the hashes. -/
theorem HashesAfter.of_before (h : HashesAfter db' call db'')
    (hsame : ∀ u, storedHash db' u = storedHash db u) : HashesAfter db call db'' := by
  unfold HashesAfter at h ⊢
  simpa only [hsame] using h

/-- Statements after it that keep them. -/
theorem HashesAfter.of_after (h : HashesAfter db call db')
    (hsame : ∀ u, storedHash db'' u = storedHash db' u) : HashesAfter db call db'' := by
  unfold HashesAfter at h ⊢
  simpa only [hsame] using h

/-! ## Each statement -/

theorem storedHash_insert {user : User} (h : insert db user = .ok db') (u : Str) :
    storedHash db' u = storedHash db u := by
  have hnew := lookup_of_insert h
  unfold storedHash
  rw [Database.lookup_users_insertUser db h]
  split_ifs with hu
  · rw [hu, hnew]
    rfl
  · rfl

theorem storedHash_updateIdentityKey {userId : Str} {key : Bytes}
    (h : updateIdentityKey db userId key = .ok db') (u : Str) :
    storedHash db' u = storedHash db u := by
  unfold storedHash
  rw [lookup_users_updateIdentityKey h]
  split_ifs
  · cases db.users.lookup u <;> rfl
  · rfl

/-- The hash of a user who has a row. -/
theorem storedHash_setPassword {userId : Str} (hrow : userId ∈ db.users) (hash : PwHash) (u : Str) :
    storedHash (setPassword db userId (some hash)).2 u =
      if u = userId then some hash.1 else storedHash db u := by
  have hfilled : (some hash.1).filter (fun hash => !hash.isEmpty) = some hash.1 := by
    apply Option.filter_eq_some_iff.2
    refine ⟨rfl, ?_⟩
    cases e : hash.1 with
    | nil =>
      have hlength := hash.2
      rw [e] at hlength
      cases hlength
    | cons c rest => rfl
  show ((Database.updateUser db userId _).users.lookup u).bind _ = _
  rw [Database.lookup_users_updateUser]
  split_ifs with hu
  · obtain ⟨row, hlookup⟩ := UnorderedMap.mem_iff_lookup.1 hrow
    rw [hu, hlookup]
    exact hfilled
  · rfl

theorem hashesAfter_setPassword {userId : Str} (hrow : userId ∈ db.users) (password : Str)
    (hash : Option PwHash) :
    HashesAfter db (hash.map fun hash => ⟨userId, password, hash⟩)
      (setPassword db userId hash).2 := by
  cases hash with
  | none => exact hashesAfter_none fun u => rfl
  | some hash => exact storedHash_setPassword hrow hash

theorem hashesAfter_updatePassword (crypto : Crypto) (userId oldPassword password : Str)
    (hash : Option PwHash) :
    HashesAfter db
      (if verifyPassword db crypto userId oldPassword then
        hash.map fun hash => ⟨userId, password, hash⟩ else none)
      (updatePassword db crypto userId oldPassword hash).2 := by
  unfold updatePassword
  by_cases hverified : verifyPassword db crypto userId oldPassword = true
  · obtain ⟨row, -, hrow, -⟩ := hasPassword_of_verifyPassword hverified
    rw [if_pos hverified, if_neg (by simp [hverified])]
    exact hashesAfter_setPassword (UnorderedMap.mem_iff_lookup.2 ⟨row, hrow⟩) password hash
  · rw [if_neg hverified, if_pos (by simp [hverified])]
    exact hashesAfter_none fun u => rfl

end UserStore

end Ircord

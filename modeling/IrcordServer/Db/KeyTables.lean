import IrcordServer.Db.UserStore

/-!
# The pre-keys after each operation of the user store
-/

open Container Sql

namespace Ircord

namespace UserStore

variable {db db' : Database}

/-- The pre-keys of all users are the same. -/
structure SamePrekeys (db db' : Database) : Prop where
  signedPrekeys : db'.signedPrekeys = db.signedPrekeys
  oneTimePrekeys : db'.oneTimePrekeys = db.oneTimePrekeys

theorem samePrekeys_insert {user : User} (h : insert db user = .ok db') : SamePrekeys db db' := by
  unfold insert Database.insertUser at h
  split at h
  · cases h
  · split_ifs at h
    cases h
    exact ⟨rfl, rfl⟩

/-- Only a new user is inserted. -/
theorem lookup_of_insert {user : User} (h : insert db user = .ok db') :
    db.users.lookup user.userId = none := by
  unfold insert Database.insertUser at h
  split at h
  · cases h
  · split_ifs at h with hmem
    exact AList.lookup_eq_none.2 hmem

theorem samePrekeys_updateUser (userId : Str) (f : UserRow → UserRow) :
    SamePrekeys db (db.updateUser userId f) := by
  unfold Database.updateUser
  split <;> exact ⟨rfl, rfl⟩

theorem samePrekeys_updateIdentityKey {userId : Str} {key : Bytes}
    (h : updateIdentityKey db userId key = .ok db') : SamePrekeys db db' := by
  unfold updateIdentityKey at h
  split at h
  · cases h
  · cases h
    exact samePrekeys_updateUser _ _

theorem samePrekeys_setPassword (userId : Str) (hash : Option PwHash) :
    SamePrekeys db (setPassword db userId hash).2 := by
  cases hash with
  | none => exact ⟨rfl, rfl⟩
  | some hash => exact samePrekeys_updateUser _ _

/-- What `upsert_signed_prekey` does when it does not throw. -/
theorem of_upsertSignedPrekey {userId : Str} {spkPub spkSig : Bytes} {nowUnix : ℤ}
    (h : upsertSignedPrekey db userId spkPub spkSig nowUnix = .ok db') :
    db'.users = db.users ∧ db'.oneTimePrekeys = db.oneTimePrekeys ∧
      db'.signedPrekeys = db.signedPrekeys.insert userId ⟨spkPub, spkSig, nowUnix⟩ := by
  unfold upsertSignedPrekey Database.replaceSignedPrekey bindBlob at h
  split at h
  · rename_i pub sig hpub hsig
    split_ifs at h hpub hsig
    cases hpub
    cases hsig
    cases h
    exact ⟨rfl, rfl, rfl⟩
  all_goals cases h

/-- What `store_opk` does when it does not throw. -/
theorem of_storeOpk {userId : Str} {opk : Bytes} (h : storeOpk db userId opk = .ok db') :
    opk ≠ [] ∧ db'.users = db.users ∧ db'.signedPrekeys = db.signedPrekeys ∧
      db'.oneTimePrekeys = db.oneTimePrekeys.insert ⟨userId, opk, false⟩ := by
  unfold storeOpk Database.insertOneTimePrekey bindBlob at h
  split at h
  · cases h
  · rename_i blob hblob
    split_ifs at h hblob with _ hempty
    cases hblob
    cases h
    exact ⟨fun hnil => hempty (hnil ▸ rfl), rfl, rfl, rfl⟩

theorem lookup_signedPrekeys_clearKeyMaterial (userId u : Str) :
    (clearKeyMaterial db userId).signedPrekeys.lookup u =
      if u = userId then none else db.signedPrekeys.lookup u := by
  refine (UnorderedMap.lookup_filter _ _ _).trans ?_
  split_ifs with hu
  · rw [hu]
    cases db.signedPrekeys.lookup userId <;> simp
  · cases db.signedPrekeys.lookup u <;> simp [hu]

theorem mem_rows_clearKeyMaterial {userId : Str} {r : ℕ × OneTimePrekeyRow} :
    r ∈ (clearKeyMaterial db userId).oneTimePrekeys.rows ↔
      r ∈ db.oneTimePrekeys.rows ∧ r.2.userId ≠ userId := by
  refine Table.mem_retain.trans (and_congr_right fun _ => ?_)
  simp

/-- `consume_opk` finds no unused row of the user, or it marks one and returns its key. -/
theorem consumeOpk_cases (db : Database) (userId : Str) :
    consumeOpk db userId = ([], db) ∧
        (∀ r ∈ db.oneTimePrekeys.rows, r.2.userId = userId → r.2.used = true) ∨
      ∃ n row, (n, row) ∈ db.oneTimePrekeys.rows ∧ row.userId = userId ∧ row.used = false ∧
        consumeOpk db userId = (row.opkPub, db.markOneTimePrekeyUsed n) := by
  unfold consumeOpk
  split
  · rename_i hnone
    refine Or.inl ⟨rfl, fun r hr hu => ?_⟩
    have hskip := List.find?_eq_none.1 hnone r hr
    simpa [hu] using hskip
  · rename_i n row hsome
    right
    have hrow := List.find?_some hsome
    simp only [Bool.and_eq_true, beq_iff_eq, Bool.not_eq_true'] at hrow
    exact ⟨n, row, List.mem_of_find?_eq_some hsome, hrow.1, hrow.2, rfl⟩

end UserStore

end Ircord

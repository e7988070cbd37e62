import IrcordServer.Net.Quiet

/-!
# Authentication

What an accepted `HELLO` and an accepted `AUTH_RESPONSE` do.  Acceptance changes the state of the
session and, for an `AUTH_RESPONSE`, the registry and at most one row of the users table
(`Verified`); a message that is not accepted is handled quietly.
-/

open Container

namespace Ircord

/-! ## The verdict on the user -/

/-- What an `AUTH_RESPONSE` that is accepted does to the users table: the presented key is the
user's, and it replaced another one only if the password was right. -/
structure Verified (crypto : Crypto) (auth : AuthResponse) (db db' : Database) : Prop where
  key : UserStore.identityKey db' auth.userId = some auth.identityPub
  others : ∀ u, u ≠ auth.userId → UserStore.identityKey db' u = UserStore.identityKey db u
  recovered : ∀ row, db.users.lookup auth.userId = some row → row.identityPub ≠ auth.identityPub →
    ∃ hash, row.passwordHash = some hash ∧ crypto.pwhashStrVerify hash auth.password = true

section Verdict

variable {crypto : Crypto} {d : Draws} {db : Database} {auth : AuthResponse}

/-- Storing the signed pre-key of an existing user does not throw. -/
theorem storeSignedPrekey_ok (hexists : auth.userId ∈ db.users) :
    ∃ db', storeSignedPrekey d db auth = .ok db' ∧ db'.users = db.users := by
  unfold storeSignedPrekey
  split_ifs with hempty
  · exact ⟨db, rfl, rfl⟩
  · simp only [Bool.or_eq_true, List.isEmpty_iff, not_or] at hempty
    exact UserStore.upsertSignedPrekey_ok hempty.1 hempty.2 hexists

/-- A user whose key is in place and who is given no other. -/
theorem verified_of_key {db' : Database}
    (hkey : ∀ u, UserStore.identityKey db' u =
      if u = auth.userId then some auth.identityPub else UserStore.identityKey db u)
    (hrecovered : ∀ row, db.users.lookup auth.userId = some row →
      row.identityPub ≠ auth.identityPub →
      ∃ hash, row.passwordHash = some hash ∧ crypto.pwhashStrVerify hash auth.password = true) :
    Verified crypto auth db db' where
  key := by rw [hkey, if_pos rfl]
  others u hu := by rw [hkey, if_neg hu]
  recovered := hrecovered

/-- Nothing more happens to the keys. -/
theorem Verified.of_keys {db' db'' : Database} (h : Verified crypto auth db db')
    (hkeys : ∀ u, UserStore.identityKey db'' u = UserStore.identityKey db' u) :
    Verified crypto auth db db'' where
  key := (hkeys _).trans h.key
  others u hu := (hkeys u).trans (h.others u hu)
  recovered := h.recovered

theorem identityKey_of_users_eq {db db' : Database} (h : db'.users = db.users) (u : Str) :
    UserStore.identityKey db' u = UserStore.identityKey db u := by
  rw [UserStore.identityKey, UserStore.identityKey, h]

theorem identityKey_setPassword (userId : Str) (hash : Option PwHash) (u : Str) :
    UserStore.identityKey (UserStore.setPassword db userId hash).2 u =
      UserStore.identityKey db u :=
  UserStore.lookup_users_setPassword userId hash u

/-- A new user is always registered. -/
theorem registerUser_accepts (hkey : auth.identityPub ≠ [])
    (hnew : db.users.lookup auth.userId = none) :
    ∃ db', registerUser d db auth = .accept db' ∧ Verified crypto auth db db' := by
  obtain ⟨db₁, hinsert, hkey₁⟩ :=
    @UserStore.insert_ok db auth.userId auth.identityPub d.nowUnix hkey hnew
  have hverified : Verified crypto auth db db₁ :=
    verified_of_key hkey₁ fun row hrow => by rw [hnew] at hrow; cases hrow
  obtain ⟨db₂, hprekey, husers⟩ :=
    @storeSignedPrekey_ok d db₁ auth (UserStore.mem_users_of_identityKey hverified.key)
  have hverified₂ := hverified.of_keys (identityKey_of_users_eq husers)
  unfold registerUser
  rw [hinsert]
  dsimp only
  rw [hprekey]
  dsimp only
  split_ifs
  · exact ⟨db₂, rfl, hverified₂⟩
  · exact ⟨_, rfl, hverified₂.of_keys (identityKey_setPassword _ _)⟩

theorem recoverIdentityKey_cases (hkey : auth.identityPub ≠ []) (hexists : auth.userId ∈ db.users) :
    (∃ code message, recoverIdentityKey crypto d db auth = .fail code message) ∨
      ∃ db', recoverIdentityKey crypto d db auth = .accept db' ∧ Verified crypto auth db db' := by
  unfold recoverIdentityKey
  split_ifs with hpassword hverify
  · right
    obtain ⟨row, hash, hrow, hhash, hright⟩ := UserStore.hasPassword_of_verifyPassword hverify
    obtain ⟨db₁, hupdate, hkey₁⟩ :=
      @UserStore.updateIdentityKey_ok (UserStore.clearKeyMaterial db auth.userId) auth.userId
        auth.identityPub hkey hexists
    have hverified : Verified crypto auth db db₁ := by
      refine verified_of_key hkey₁ fun row' hrow' _ => ⟨hash, ?_, hright⟩
      cases hrow.symm.trans hrow'
      exact hhash
    obtain ⟨db₂, hprekey, husers⟩ :=
      @storeSignedPrekey_ok d db₁ auth (UserStore.mem_users_of_identityKey hverified.key)
    dsimp only
    rw [hupdate]
    dsimp only
    rw [hprekey]
    exact ⟨db₂, rfl, hverified.of_keys (identityKey_of_users_eq husers)⟩
  · exact Or.inl ⟨_, _, rfl⟩
  · exact Or.inl ⟨_, _, rfl⟩

/-- No statement throws; the verdict is a refusal or an accepted user. -/
theorem registerOrVerify_cases (hkey : auth.identityPub ≠ []) :
    (∃ code message, registerOrVerify crypto d db auth = .fail code message) ∨
      ∃ db', registerOrVerify crypto d db auth = .accept db' ∧ Verified crypto auth db db' := by
  unfold registerOrVerify
  split
  · rename_i hnew
    exact Or.inr (registerUser_accepts hkey (UserStore.findById_eq_none.1 hnew))
  · rename_i existing hfound
    obtain ⟨row, hrow, hpub⟩ := UserStore.findById_eq_some hfound
    rw [hpub]
    split_ifs with hdiffers hbackfill
    · exact recoverIdentityKey_cases hkey (UnorderedMap.mem_iff_lookup.2 ⟨row, hrow⟩)
    all_goals
      right
      have hsame : row.identityPub = auth.identityPub := not_ne_iff.1 hdiffers
      have hverified : Verified crypto auth db db :=
        { key := UserStore.identityKey_eq_some.2 ⟨row, hrow, hsame⟩
          others := fun _ _ => rfl
          recovered := fun row' hrow' hne => by
            cases hrow.symm.trans hrow'
            exact absurd hsame hne }
    · exact ⟨_, rfl, hverified.of_keys (identityKey_setPassword _ _)⟩
    · exact ⟨_, rfl, hverified⟩

end Verdict

namespace Server

variable {codec : Codec} {crypto : Crypto} {d : Draws} {sv sv' : Server} {s : SessionId}
  {x : Session}

/-! ## `HELLO` -/

theorem handleHello_refused {hello : Hello}
    (h : hello.protocolVersion ≠ Session.protocolVersion) :
    Quiet False (some s) sv (sv.handleHello codec d s hello) := by
  unfold handleHello
  rw [if_pos h]
  exact quiet_sendError_disconnect _ _

/-- The core of a session that was sent the challenge `nonce`. -/
def challenged (nonce : Bytes) (c : SessionCore) : SessionCore :=
  { c with state := .authPending, authNonce := nonce }

theorem handleHello_accepted {hello : Hello}
    (h : hello.protocolVersion = Session.protocolVersion) :
    Moves False s (challenged d.nonce) sv (sv.handleHello codec d s hello) := by
  unfold handleHello
  rw [if_neg (not_not_intro h)]
  have hnonce : Moves False s (fun c => { c with authNonce := d.nonce }) sv
      (sv.modify s fun x => { x with authNonce := d.nonce }) := moves_modify _ fun _ => rfl
  have hstate (sv : Server) : Moves False s (fun c => { c with state := .authPending }) sv
      (sv.modify s fun x => { x with state := .authPending }) := moves_modify _ fun _ => rfl
  exact (hnonce.trans_quiet (quiet_sendEnvelope _ _)).trans (hstate _)

/-! ## `AUTH_RESPONSE` -/

/-- The core of a session that was authenticated. -/
def authenticated (userId : Str) (c : SessionCore) : SessionCore :=
  { c with state := .established, userId := userId }

/-- `sv'` comes from `sv` by the session `s` getting established for a user without a session. -/
structure Enters (s : SessionId) (userId : Str) (sv sv' : Server) : Prop where
  core : ∀ t, sv'.core t = if s = t then (sv.core t).map (authenticated userId) else sv.core t
  untouched : ∀ t, s ≠ t → ¬ sv.Registered t → sv'.sessions[t]? = sv.sessions[t]?
  sessionsByUser : sv'.sessionsByUser = sv.sessionsByUser.insert userId s
  usersBySession : sv'.usersBySession = sv.usersBySession.insert s userId
  activeConnections : sv'.activeConnections = sv.activeConnections
  disconnected : sv'.disconnected = sv.disconnected
  keys : UserStore.KeysKept False sv.db sv'.db

theorem quiet_sendMotd : Quiet False (some s) sv (sv.sendMotd codec d s) := by
  unfold sendMotd
  split_ifs
  · exact .refl _ _
  · exact quiet_sendEnvelope _ _

theorem quiet_deliverOffline (userId : Str) :
    Quiet False (some s) sv (sv.deliverOffline codec d s userId) :=
  (quiet_setDb_of_users_eq (OfflineStore.users_fetchAndDelete sv.db userId d.nowUnix)).trans
    (Quiet.foldl fun _ _ _ _ => quiet_send writable_self _)

theorem register_eq {userId : Str} (hfree : sv.sessionsByUser.lookup userId = none) :
    sv.register s userId = sv.addSession s userId := by
  unfold register
  rw [hfree]

theorem not_registered_addSession {userId : Str} {t : SessionId} (ht : s ≠ t)
    (hreg : ¬ sv.Registered t) : ¬ (sv.addSession s userId).Registered t := by
  rw [registered_iff] at hreg ⊢
  rintro (hmem | ⟨u, hu⟩)
  · exact hreg (Or.inl ((UnorderedMap.mem_insert_iff.1 hmem).resolve_left ht.symm))
  · have hu' : (sv.sessionsByUser.insert userId s).lookup u = some t := hu
    rw [UnorderedMap.lookup_insert_ite] at hu'
    split_ifs at hu'
    · exact ht (Option.some.inj hu')
    · exact hreg (Or.inr ⟨u, hu'⟩)

theorem enterEstablished_moves (userId : Str) :
    Moves False s (authenticated userId) sv (sv.enterEstablished codec d s userId) := by
  have huser : Moves False s (fun c => { c with userId := userId }) sv
      (sv.modify s fun x => { x with userId := userId }) := moves_modify _ fun _ => rfl
  have hstate (sv : Server) : Moves False s (fun c => { c with state := .established }) sv
      (sv.modify s fun x => { x with state := .established }) := moves_modify _ fun _ => rfl
  exact ((huser.trans_quiet (quiet_sendEnvelope _ _)).trans (hstate _)).trans_quiet quiet_sendMotd

theorem quiet_startTraffic (userId : Str) :
    Quiet False (some s) sv (sv.startTraffic codec d s userId) := by
  unfold startTraffic
  refine Quiet.trans ?_ (quiet_broadcastPresence _ _)
  refine Quiet.trans ?_ (quiet_deliverOffline _)
  refine Quiet.trans ?_ (quiet_modify writable_self _ fun _ => rfl)
  exact quiet_modify writable_self _ fun _ => rfl

theorem establish_enters {userId : Str} (hfree : sv.sessionsByUser.lookup userId = none) :
    Enters s userId sv (establish codec d sv s userId) := by
  have hmoves := @enterEstablished_moves codec d sv s userId
  unfold establish onSessionAuthenticated
  dsimp only
  rw [register_eq (by rw [hmoves.sessionsByUser]; exact hfree)]
  generalize sv.enterEstablished codec d s userId = sv₁ at hmoves ⊢
  have hrest : Quiet False (some s) (sv₁.addSession s userId)
      (((sv₁.addSession s userId).sendPresenceSnapshot codec d s
        (sv₁.addSession s userId).onlineUsers).startTraffic codec d s userId) :=
    (quiet_sendPresenceSnapshot _).trans (quiet_startTraffic userId)
  exact
    { core := fun t => (hrest.core t).trans (hmoves.core t)
      untouched := fun t ht hreg =>
        (hrest.untouched t (fun e => ht (Option.some.inj e))
          (not_registered_addSession ht fun hreg' => hreg ((hmoves.registered t).1 hreg'))).trans
          (hmoves.untouched t ht hreg)
      sessionsByUser := hrest.sessionsByUser.trans (by rw [addSession, hmoves.sessionsByUser])
      usersBySession := hrest.usersBySession.trans (by rw [addSession, hmoves.usersBySession])
      activeConnections := hrest.activeConnections.trans hmoves.activeConnections
      disconnected := hrest.disconnected.trans hmoves.disconnected
      keys := hmoves.keys.trans hrest.keys id }

theorem lookup_of_isNicknameAvailable {userId : Str} (h : sv.isNicknameAvailable userId = true) :
    sv.sessionsByUser.lookup userId = none := by
  rw [AList.lookup_eq_none]
  intro hmem
  have hne := List.all_eq_true.1 h userId (AList.mem_keys.1 hmem)
  simp at hne

variable (crypto sv) in
/-- The checks of `handle_auth_response` before it asks the tables. -/
structure Presents (nonce : Bytes) (auth : AuthResponse) : Prop where
  userId : isValidUserId auth.userId = true
  available : sv.isNicknameAvailable auth.userId = true
  keyLength : auth.identityPub.length = publicKeyBytes
  signatureLength : auth.signature.length = signatureBytes
  verified : crypto.signVerifyDetached auth.signature (nonce ++ auth.userId) auth.identityPub = true

instance (crypto : Crypto) (sv : Server) (nonce : Bytes) (auth : AuthResponse) :
    Decidable (Presents crypto sv nonce auth) :=
  decidable_of_iff (isValidUserId auth.userId = true ∧ sv.isNicknameAvailable auth.userId = true ∧
      auth.identityPub.length = publicKeyBytes ∧ auth.signature.length = signatureBytes ∧
        crypto.signVerifyDetached auth.signature (nonce ++ auth.userId) auth.identityPub = true)
    ⟨fun ⟨huser, havailable, hkey, hsignature, hverified⟩ =>
        ⟨huser, havailable, hkey, hsignature, hverified⟩,
      fun h => ⟨h.userId, h.available, h.keyLength, h.signatureLength, h.verified⟩⟩

theorem Presents.key_ne_nil {nonce : Bytes} {auth : AuthResponse}
    (h : Presents crypto sv nonce auth) : auth.identityPub ≠ [] := by
  intro hnil
  have hlength := h.keyLength
  rw [hnil] at hlength
  cases hlength

theorem handleAuthResponse_refused {auth : AuthResponse}
    (h : ¬ Presents crypto sv x.authNonce auth) :
    Quiet False (some s) sv (sv.handleAuthResponse codec crypto d s x auth) := by
  unfold handleAuthResponse
  split
  · exact quiet_sendError_disconnect _ _
  · rename_i huser
    split
    · exact quiet_authFail _ _
    · rename_i havailable
      split
      · exact quiet_sendError_disconnect _ _
      · rename_i hkey
        split
        · exact quiet_sendError_disconnect _ _
        · rename_i hsignature
          split
          · exact quiet_authFail _ _
          · rename_i hverified
            refine absurd ⟨?_, ?_, not_ne_iff.1 hkey, not_ne_iff.1 hsignature, ?_⟩ h
            · simpa using huser
            · simpa using havailable
            · simpa using hverified

theorem handleAuthResponse_presented {auth : AuthResponse}
    (h : Presents crypto sv x.authNonce auth) :
    sv.handleAuthResponse codec crypto d s x auth =
      sv.onVerdict codec d s auth.userId (registerOrVerify crypto d sv.db auth) := by
  unfold handleAuthResponse
  rw [if_neg (by simp [h.userId]), if_neg (by simp [h.available]),
    if_neg (not_not_intro h.keyLength), if_neg (not_not_intro h.signatureLength),
    if_neg (by simp [h.verified])]

/-- `sv'` comes from `sv` by the session `s`, which had sent `auth`, getting established; its core
changes as `g` does. -/
structure Authenticates (crypto : Crypto) (s : SessionId) (auth : AuthResponse)
    (g : SessionCore → SessionCore) (sv sv' : Server) : Prop where
  core : ∀ t, sv'.core t = if s = t then (sv.core t).map g else sv.core t
  untouched : ∀ t, s ≠ t → ¬ sv.Registered t → sv'.sessions[t]? = sv.sessions[t]?
  free : sv.sessionsByUser.lookup auth.userId = none
  sessionsByUser : sv'.sessionsByUser = sv.sessionsByUser.insert auth.userId s
  usersBySession : sv'.usersBySession = sv.usersBySession.insert s auth.userId
  activeConnections : sv'.activeConnections = sv.activeConnections
  disconnected : sv'.disconnected = sv.disconnected
  verified : Verified crypto auth sv.db sv'.db

theorem authenticates_establish {auth : AuthResponse} {db : Database}
    (hfree : sv.sessionsByUser.lookup auth.userId = none) (hdb : Verified crypto auth sv.db db) :
    Authenticates crypto s auth (authenticated auth.userId) sv
      (establish codec d { sv with db := db } s auth.userId) := by
  have henters := @establish_enters codec d { sv with db := db } s auth.userId hfree
  exact
    { core := henters.core
      untouched := henters.untouched
      free := hfree
      sessionsByUser := henters.sessionsByUser
      usersBySession := henters.usersBySession
      activeConnections := henters.activeConnections
      disconnected := henters.disconnected
      verified := hdb.of_keys (UserStore.identityKey_of_keysKept henters.keys) }

/-- An `AUTH_RESPONSE` is handled quietly, or it passes all checks and is accepted. -/
theorem handleAuthResponse_cases (auth : AuthResponse) :
    Quiet False (some s) sv (sv.handleAuthResponse codec crypto d s x auth) ∨
      Presents crypto sv x.authNonce auth ∧
        Authenticates crypto s auth (authenticated auth.userId) sv
          (sv.handleAuthResponse codec crypto d s x auth) := by
  by_cases h : Presents crypto sv x.authNonce auth
  · rw [handleAuthResponse_presented h]
    rcases @registerOrVerify_cases crypto d sv.db auth h.key_ne_nil with
      ⟨code, message, e⟩ | ⟨db, e, hdb⟩
    · rw [e]
      exact Or.inl (quiet_authFail _ _)
    · rw [e]
      exact Or.inr ⟨h, authenticates_establish (lookup_of_isNicknameAvailable h.available) hdb⟩
  · exact Or.inl (handleAuthResponse_refused h)

/-- A new user that passes the checks is always accepted. -/
theorem handleAuthResponse_of_new {auth : AuthResponse} (h : Presents crypto sv x.authNonce auth)
    (hnew : UserStore.findById sv.db auth.userId = none) :
    Authenticates crypto s auth (authenticated auth.userId) sv
      (sv.handleAuthResponse codec crypto d s x auth) := by
  obtain ⟨db, e, hdb⟩ := @registerUser_accepts crypto d sv.db auth h.key_ne_nil
    (UserStore.findById_eq_none.1 hnew)
  have haccept : registerOrVerify crypto d sv.db auth = .accept db := by
    unfold registerOrVerify
    rw [hnew]
    exact e
  rw [handleAuthResponse_presented h, haccept]
  exact authenticates_establish (lookup_of_isNicknameAvailable h.available) hdb

end Server

end Ircord

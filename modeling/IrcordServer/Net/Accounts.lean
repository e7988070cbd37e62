import IrcordServer.Commands.Effects
import IrcordServer.Net.PasswordPolicy
import IrcordServer.Net.Resets

/-!
# An account without its secrets

The secrets of an account are the private key to its identity key and its password.  As long as no
`AUTH_RESPONSE` for a user who is not logged in shows one of them, nobody gets in for that user, and
neither the row of the user nor the signed pre-key changes (`accounts_are_safe`).
-/

open Container Run

namespace Ircord

/-- What key bundles for a user are made of, and logins of the user checked against; the one-time
pre-keys apart. -/
def Database.account (db : Database) (u : Str) : Option UserRow × Option SignedPrekeyRow :=
  (db.users.lookup u, db.signedPrekeys.lookup u)

/-- The response, to the challenge `nonce`, was signed with the key in the row, or brings the
password that belongs to the hash in the row. -/
def ShowsSecret (crypto : Crypto) (row : UserRow) (nonce : Bytes) (auth : AuthResponse) : Prop :=
  crypto.signVerifyDetached auth.signature (nonce ++ auth.userId) row.identityPub = true ∨
    row.passwordHash.any (crypto.pwhashStrVerify · auth.password) = true

instance (crypto : Crypto) (row : UserRow) (nonce : Bytes) (auth : AuthResponse) :
    Decidable (ShowsSecret crypto row nonce auth) :=
  inferInstanceAs (Decidable (_ ∨ _))

variable {codec : Codec} {crypto : Crypto} {d : Draws} {db db' : Database} {u : Str} {row : UserRow}
  {auth : AuthResponse}

namespace Database

theorem account_of_parts (husers : db'.users = db.users)
    (hprekeys : db'.signedPrekeys = db.signedPrekeys) (u : Str) : db'.account u = db.account u := by
  rw [account, account, husers, hprekeys]

/-- Statements about the row of another user. -/
theorem account_updateUser {userId : Str} (hu : u ≠ userId) (f : UserRow → UserRow) :
    (db.updateUser userId f).account u = db.account u := by
  unfold account
  rw [lookup_users_updateUser, if_neg hu, (UserStore.samePrekeys_updateUser userId f).1]

theorem account_replaceSignedPrekey {userId : Str} {spkPub spkSig : Bytes} {uploadedAt : ℤ}
    (hu : u ≠ userId) (h : db.replaceSignedPrekey userId spkPub spkSig uploadedAt = .ok db') :
    db'.account u = db.account u := by
  unfold account
  rw [users_replaceSignedPrekey db h]
  unfold replaceSignedPrekey at h
  split at h
  · split_ifs at h
    cases h
    dsimp only
    rw [AList.lookup_insert_ne hu]
  all_goals cases h

theorem account_insertUser {userId key : Bytes} {createdAt : ℤ} (hu : u ≠ userId)
    (h : db.insertUser userId key createdAt = .ok db') : db'.account u = db.account u := by
  have hprekeys : UserStore.SamePrekeys db db' :=
    @UserStore.samePrekeys_insert db db' ⟨userId, key, createdAt⟩ h
  unfold account
  rw [lookup_users_insertUser db h, if_neg hu, hprekeys.1]

end Database

namespace UserStore

theorem account_setPassword {userId : Str} (hu : u ≠ userId) (hash : Option PwHash) :
    (setPassword db userId hash).2.account u = db.account u := by
  cases hash with
  | none => rfl
  | some hash => exact Database.account_updateUser hu _

theorem account_updatePassword {userId : Str} (hu : u ≠ userId) (oldPassword : Str)
    (hash : Option PwHash) :
    (updatePassword db crypto userId oldPassword hash).2.account u = db.account u := by
  unfold updatePassword
  split_ifs
  · rfl
  · exact account_setPassword hu hash

theorem account_clearKeyMaterial {userId : Str} (hu : u ≠ userId) :
    (clearKeyMaterial db userId).account u = db.account u := by
  unfold Database.account
  rw [lookup_signedPrekeys_clearKeyMaterial, if_neg hu]
  rfl

theorem account_updateIdentityKey {userId : Str} {key : Bytes} (hu : u ≠ userId)
    (h : updateIdentityKey db userId key = .ok db') : db'.account u = db.account u := by
  unfold updateIdentityKey at h
  split at h
  · cases h
  · cases h
    exact Database.account_updateUser hu _

end UserStore

/-! ## The verdict on somebody else -/

theorem account_storeSignedPrekey (hu : u ≠ auth.userId)
    (h : storeSignedPrekey d db auth = .ok db') : db'.account u = db.account u := by
  unfold storeSignedPrekey at h
  split_ifs at h
  · cases h
    rfl
  · exact Database.account_replaceSignedPrekey hu h

theorem account_registerUser (hu : u ≠ auth.userId) :
    ((registerUser d db auth).tables.getD db).account u = db.account u := by
  unfold registerUser
  split
  · rfl
  · rename_i db₁ hinsert
    have hsame₁ : db₁.account u = db.account u := Database.account_insertUser hu hinsert
    split
    · exact hsame₁
    · rename_i db₂ hprekey
      have hsame₂ := (account_storeSignedPrekey hu hprekey).trans hsame₁
      split_ifs
      · exact hsame₂
      · exact (UserStore.account_setPassword hu _).trans hsame₂

theorem account_recoverIdentityKey (hu : u ≠ auth.userId) :
    ((recoverIdentityKey crypto d db auth).tables.getD db).account u = db.account u := by
  have hcleared := @UserStore.account_clearKeyMaterial db u auth.userId hu
  unfold recoverIdentityKey
  split_ifs
  · dsimp only
    split
    · exact hcleared
    · rename_i db₁ hupdate
      have hsame₁ := (UserStore.account_updateIdentityKey hu hupdate).trans hcleared
      split
      · exact hsame₁
      · rename_i db₂ hprekey
        exact (account_storeSignedPrekey hu hprekey).trans hsame₁
  · rfl
  · rfl

theorem account_registerOrVerify (hu : u ≠ auth.userId) :
    ((registerOrVerify crypto d db auth).tables.getD db).account u = db.account u := by
  unfold registerOrVerify
  split
  · exact account_registerUser hu
  · split_ifs
    · exact account_recoverIdentityKey hu
    · exact UserStore.account_setPassword hu _
    · rfl

/-! ## The verdict on the user, without the secrets -/

/-- The password of the row is the one that decides. -/
theorem showsSecret_of_verifyPassword {nonce : Bytes}
    (hrow : db.users.lookup auth.userId = some row)
    (h : UserStore.verifyPassword db crypto auth.userId auth.password = true) :
    ShowsSecret crypto row nonce auth := by
  obtain ⟨row', hash, hrow', hhash, hright⟩ := UserStore.hasPassword_of_verifyPassword h
  cases hrow.symm.trans hrow'
  exact Or.inr ((Option.any_eq_true _ _).2 ⟨hash, hhash, hright⟩)

theorem registerOrVerify_of_noSecret {sv : Server} {nonce : Bytes}
    (hrow : sv.db.users.lookup auth.userId = some row)
    (hpresents : Server.Presents crypto sv nonce auth)
    (hsecret : ¬ ShowsSecret crypto row nonce auth) :
    ∃ code message, registerOrVerify crypto d sv.db auth = .fail code message := by
  unfold registerOrVerify
  split
  · rename_i hnone
    rw [UserStore.findById_eq_none.1 hnone] at hrow
    cases hrow
  · rename_i existing hfound
    obtain ⟨row', hrow', hkey⟩ := UserStore.findById_eq_some hfound
    cases hrow.symm.trans hrow'
    have hdiffers : existing.identityPub ≠ auth.identityPub := by
      intro hsame
      refine hsecret (Or.inl ?_)
      rw [← hkey, hsame]
      exact hpresents.verified
    rw [if_pos hdiffers]
    unfold recoverIdentityKey
    split_ifs with hhas hright
    · exact absurd (showsSecret_of_verifyPassword hrow hright) hsecret
    · exact ⟨_, _, rfl⟩
    · exact ⟨_, _, rfl⟩

namespace Server

section Definitions

variable (codec : Codec) (crypto : Crypto) (u : Str) (row : UserRow) (sv : Server) (i : Input)

/-- Nobody is logged in as the user. -/
structure LoggedOut : Prop where
  unregistered : sv.findSession u = none
  notEstablished : ∀ x ∈ sv.sessions, x.state = .established → x.userId ≠ u

/-- No `AUTH_RESPONSE` for the user that comes in the step shows a secret of the row. -/
def WithoutSecrets : Prop :=
  ∀ (s : SessionId) (x : Session) (auth : AuthResponse), sv.sessions[s]? = some x →
    receivedAuth codec s sv i = some auth → auth.userId = u →
    ¬ ShowsSecret crypto row x.authNonce auth

/-- The command of `s` that the step passes to `handle_command`. -/
def receivedCommand (s : SessionId) : Option IrcCommand :=
  match sv.core s, delivered codec s sv i with
  | some c, some env =>
    if c.state = .established ∧ env.type = .command then env.parsePayload codec.ircCommand
    else none
  | _, _ => none

/-- The step is a `/resetdb` of the admin that gets to its function, while no pre-key refers to a
user. -/
def ResetsUsers : Prop :=
  ∃ (s : SessionId) (x : Session) (cmd : IrcCommand), sv.sessions[s]? = some x ∧
    receivedCommand codec sv i s = some cmd ∧ x.userId = CommandHandler.adminUser ∧
    CommandHandler.dispatched i.draws.now sv.commands cmd x.userId = some .resetdb ∧
    sv.db.NoPrekeys

instance : Decidable (WithoutSecrets codec crypto u row sv i) :=
  decidable_of_iff (∀ s < sv.sessions.length, ∀ x ∈ sv.sessions[s]?,
      ∀ auth ∈ receivedAuth codec s sv i, auth.userId = u →
        ¬ ShowsSecret crypto row x.authNonce auth)
    ⟨fun h s x auth found received =>
        h s (List.getElem?_eq_some_iff.1 found).1 x found auth received,
      fun h s _ x found auth received => h s x auth found received⟩

instance : Decidable (ResetsUsers codec sv i) :=
  decidable_of_iff (∃ s < sv.sessions.length, ∃ x ∈ sv.sessions[s]?,
      ∃ cmd ∈ receivedCommand codec sv i s, x.userId = CommandHandler.adminUser ∧
        CommandHandler.dispatched i.draws.now sv.commands cmd x.userId = some .resetdb ∧
        sv.db.NoPrekeys)
    ⟨fun ⟨s, _, x, found, cmd, received, h⟩ => ⟨s, x, cmd, found, received, h⟩,
      fun ⟨s, x, cmd, found, received, h⟩ =>
        ⟨s, (List.getElem?_eq_some_iff.1 found).1, x, found, cmd, received, h⟩⟩

end Definitions

variable {sv : Server} {i : Input} {s : SessionId} {x : Session}

/-! ## The messages that write accounts -/

theorem account_onVerdict (userId : Str) (verdict : AuthVerdict) :
    (sv.onVerdict codec d s userId verdict).db.account u =
      (verdict.tables.getD sv.db).account u := by
  refine Database.account_of_parts (users_onVerdict userId verdict) ?_ u
  cases verdict with
  | accept db =>
    rw [onVerdict, part_establish accountPart_signedPrekeys]
    rfl
  | fail code message =>
    rw [onVerdict]
    exact (speaks_part (·.signedPrekeys)).authFail sv s _ _
  | insertFailed =>
    rw [onVerdict]
    exact (speaks_part (·.signedPrekeys)).sendError_disconnect sv s _ _
  | threw db => rfl

theorem account_handleAuthResponse (hrow : sv.db.users.lookup u = some row) (auth : AuthResponse)
    (hsecret : auth.userId = u → ¬ ShowsSecret crypto row x.authNonce auth) :
    (sv.handleAuthResponse codec crypto d s x auth).db.account u = sv.db.account u := by
  by_cases hpresents : Presents crypto sv x.authNonce auth
  · rw [handleAuthResponse_presented hpresents]
    by_cases hu : u = auth.userId
    · subst hu
      obtain ⟨code, message, hfail⟩ :=
        @registerOrVerify_of_noSecret crypto d row auth sv x.authNonce hrow hpresents (hsecret rfl)
      rw [hfail, onVerdict, show (sv.authFail codec d s code (str message)).db = sv.db from
        speaks_db.authFail sv s _ _]
    · exact (account_onVerdict _ _).trans (account_registerOrVerify hu)
  · rw [db_of_refused hpresents]

theorem account_storeOpks (userId : Str) (db : Database) (opks : List Bytes) :
    (storeOpks userId db opks).account u = db.account u := by
  induction opks generalizing db with
  | nil => rfl
  | cons opk opks ih =>
    unfold storeOpks
    split
    · rfl
    · rename_i db₁ hstore
      obtain ⟨-, husers, hprekeys, -⟩ := UserStore.of_storeOpk hstore
      exact (ih db₁).trans (Database.account_of_parts husers hprekeys u)

theorem account_handleKeyUpload (hu : u ≠ x.userId) (ku : KeyUpload) :
    (sv.handleKeyUpload d x ku).db.account u = sv.db.account u := by
  unfold handleKeyUpload
  dsimp only
  split
  · rfl
  · rename_i db hsigned
    refine (account_storeOpks _ _ _).trans ?_
    split_ifs at hsigned
    · cases hsigned
      rfl
    · exact Database.account_replaceSignedPrekey hu hsigned

end Server

open CommandHandler in
/-- A command keeps the accounts of others, unless the users are removed. -/
theorem CommandHandler.TableChange.account {v : Services} {caller : Caller}
    (h : TableChange v caller db db') (hu : u ≠ caller.userId) :
    db'.account u = db.account u ∨ db'.users = ∅ := by
  induction h with
  | same => exact Or.inl rfl
  | store db' userId change before ih =>
    have husers := accountPart_users.save db' userId
      (v.codec.envelope.serialize (nickChangeEnvelope v.codec change)) v.nowUnix
    have hprekeys := accountPart_signedPrekeys.save db' userId
      (v.codec.envelope.serialize (nickChangeEnvelope v.codec change)) v.nowUnix
    exact ih.imp (Database.account_of_parts husers hprekeys u).trans husers.trans
  | password oldPassword => exact Or.inl (UserStore.account_updatePassword hu oldPassword _)
  | resetdb db' admin deleted =>
    have hempty : db'.users = ∅ := Database.users_of_deleteAllUsers deleted
    exact Or.inr hempty

namespace CommandHandler

variable {v : Services} {h : CommandHandler} {args : List Str} {caller : Caller}

/-- Only `/resetdb` removes users. -/
theorem mem_users_call {kind : CommandKind} (hkind : kind ≠ .resetdb) (hu : u ∈ db.users) :
    u ∈ (call kind v h db args caller).db.users := by
  by_cases hpassword : kind = .password
  · subst hpassword
    show u ∈ (cmdPassword v h db args caller).db.users
    unfold cmdPassword
    repeat' split
    any_goals exact hu
    all_goals
      rename_i hupdate
      exact (UserStore.keysKept_updatePassword hupdate).mem hu
  · rw [users_call hpassword hkind]
    exact hu

/-- A command keeps the accounts of others, unless it is a `/resetdb` that succeeds. -/
theorem account_handleCommand (hu : u ∈ db.users) (hother : u ≠ caller.userId)
    (cmd : IrcCommand) :
    (handleCommand v h db cmd caller).db.account u = db.account u ∨
      caller.userId = adminUser ∧ dispatched v.now h cmd caller.userId = some .resetdb ∧
        db.NoPrekeys := by
  cases hkind : dispatched v.now h cmd caller.userId with
  | none =>
    obtain ⟨_, _, _, _, e⟩ := handleCommand_undispatched hkind
    rw [e]
    exact Or.inl rfl
  | some kind =>
    obtain ⟨limits, records, e, -⟩ := handleCommand_dispatched hkind
    rw [e]
    by_cases hresetdb : kind = .resetdb
    · subst hresetdb
      show (cmdResetdb _ db caller).db.account u = _ ∨ _
      by_cases hadmin : caller.userId = adminUser
      · cases hdelete : db.deleteAllUsers with
        | error error =>
          rw [cmdResetdb_of_error hdelete hadmin]
          exact Or.inl rfl
        | ok db' =>
          exact Or.inr ⟨hadmin, rfl, Database.deleteAllUsers_eq_ok_iff.1 ⟨db', hdelete⟩⟩
      · left
        unfold cmdResetdb
        rw [if_pos hadmin]
        rfl
    · left
      refine (reports_call kind).tables.account hother |>.resolve_right fun hempty => ?_
      have hmem := @mem_users_call db u v (h.withLimits limits records) cmd.args caller kind
        hresetdb hu
      rw [hempty] at hmem
      exact AList.notMem_empty u hmem

end CommandHandler

namespace Server

variable {sv : Server} {i : Input} {s : SessionId} {x : Session}

theorem account_handleCommand (hrow : sv.db.users.lookup u = some row) (hu : u ≠ x.userId)
    (cmd : IrcCommand) :
    (sv.handleCommand codec crypto d s x cmd).db.account u = sv.db.account u ∨
      x.userId = CommandHandler.adminUser ∧
        CommandHandler.dispatched d.now sv.commands cmd x.userId = some .resetdb ∧
        sv.db.NoPrekeys := by
  have hdb : (sv.handleCommand codec crypto d s x cmd).db =
      (sv.commands.handleCommand (sv.services codec crypto d) sv.db cmd ⟨s, x.userId⟩).db :=
    db_run _ _
  rw [hdb]
  have hmem : u ∈ sv.db.users := UnorderedMap.mem_iff_lookup.2 ⟨row, hrow⟩
  have hother : u ≠ (Caller.mk s x.userId).userId := hu
  exact CommandHandler.account_handleCommand hmem hother cmd

/-- An envelope, when the session is not one of the user. -/
theorem account_handleEnvelope (hrow : sv.db.users.lookup u = some row)
    (hother : x.state = .established → x.userId ≠ u) (env : Envelope)
    (hsecret : ∀ auth, x.state = .authPending → env.type = .authResponse →
      env.parsePayload codec.authResponse = some auth → auth.userId = u →
      ¬ ShowsSecret crypto row x.authNonce auth)
    (hreset : ∀ cmd, x.state = .established → env.type = .command →
      env.parsePayload codec.ircCommand = some cmd →
      ¬ (x.userId = CommandHandler.adminUser ∧
        CommandHandler.dispatched d.now sv.commands cmd x.userId = some .resetdb ∧
        sv.db.NoPrekeys)) :
    (sv.handleEnvelope codec crypto d s x env).db.account u = sv.db.account u := by
  by_cases hauth : env.type = .authResponse
  · unfold handleEnvelope
    rw [hauth]
    dsimp only
    split_ifs with hstate
    · cases hparse : env.parsePayload codec.authResponse with
      | none => exact (speaks_part (·.account u)).sendError_disconnect sv s _ _
      | some auth => exact account_handleAuthResponse hrow auth (hsecret auth hstate hauth hparse)
    · rfl
  by_cases hcommand : env.type = .command
  · unfold handleEnvelope ifAuthenticated handlePayload
    rw [hcommand]
    dsimp only
    split_ifs with hstate
    · cases hparse : env.parsePayload codec.ircCommand with
      | none => exact (speaks_part (·.account u)).sendError sv s _ _
      | some cmd =>
        exact (account_handleCommand hrow (hother hstate).symm cmd).resolve_right
          (hreset cmd hstate hcommand hparse)
    · exact (speaks_part (·.account u)).sendError sv s _ _
  by_cases hupload : env.type = .keyUpload
  · unfold handleEnvelope ifAuthenticated handlePayload
    rw [hupload]
    dsimp only
    split_ifs with hstate
    · cases env.parsePayload codec.keyUpload with
      | none => exact (speaks_part (·.account u)).sendError sv s _ _
      | some ku => exact account_handleKeyUpload (hother hstate).symm ku
    · exact (speaks_part (·.account u)).sendError sv s _ _
  · exact Database.account_of_parts
      (part_handleEnvelope accountPart_users hauth hcommand hupload)
      (part_handleEnvelope accountPart_signedPrekeys hauth hcommand hupload) u

/-- A step keeps the account. -/
theorem account_step (hrow : sv.db.users.lookup u = some row) (hout : LoggedOut u sv)
    (hsecret : WithoutSecrets codec crypto u row sv i) (hreset : ¬ ResetsUsers codec sv i) :
    (sv.step codec crypto i).db.account u = sv.db.account u := by
  by_cases hdelivered : ∃ s env, delivered codec s sv i = some env
  · obtain ⟨s, env, hdelivered⟩ := hdelivered
    obtain ⟨x, found, e⟩ := @step_of_delivered codec crypto sv s i env hdelivered
    have hother := hout.notEstablished x (List.mem_of_getElem? found)
    rw [e]
    refine @account_handleEnvelope codec crypto i.draws u row
      (sv.modify s fun x => { x with reading := none }) s x hrow hother env ?_ ?_
    · intro auth hstate htype hparse huser
      refine hsecret s x auth found ?_ huser
      unfold receivedAuth
      rw [core_of_sessions found, hdelivered]
      dsimp only
      rw [if_pos ⟨hstate, htype⟩, hparse]
    · intro cmd hstate htype hparse hresets
      refine hreset ⟨s, x, cmd, found, ?_, hresets⟩
      unfold receivedCommand
      rw [core_of_sessions found, hdelivered]
      dsimp only
      rw [if_pos ⟨hstate, htype⟩, hparse]
  · have hnone : ∀ s, delivered codec s sv i = none := by
      intro s
      apply Option.eq_none_iff_forall_ne_some.2
      exact fun env h => hdelivered ⟨s, env, h⟩
    exact Database.account_of_parts (part_step_of_not_delivered accountPart_users hnone)
      (part_step_of_not_delivered accountPart_signedPrekeys hnone) u

/-! ## Who gets in -/

/-- An accepted `AUTH_RESPONSE` for the user shows the key, unless the account changes. -/
theorem not_acceptsAuth {nonce : Bytes} (hrow : sv.db.users.lookup u = some row)
    (hsecret : WithoutSecrets codec crypto u row sv i)
    (hsame : (sv.step codec crypto i).db.account u = sv.db.account u) (huser : auth.userId = u)
    (accepts : AcceptsAuth codec crypto s sv i nonce auth) : False := by
  obtain ⟨c, hc, hnonce⟩ := accepts.challenged
  obtain ⟨x, found, rfl⟩ := core_eq_some.1 hc
  obtain ⟨row', hrow', hkey⟩ := accepts.stored
  have husers : (sv.step codec crypto i).db.users.lookup u = sv.db.users.lookup u :=
    congrArg Prod.fst hsame
  rw [huser, husers, hrow] at hrow'
  cases hrow'
  refine hsecret s x auth found accepts.received huser (Or.inl ?_)
  rw [hkey, show x.authNonce = nonce from hnonce]
  exact accepts.verified

/-- Whoever is registered after a step was so before, or authenticates in it. -/
theorem findSession_step (i : Input) (h : (sv.step codec crypto i).findSession u = some s) :
    sv.findSession u = some s ∨
      ∃ nonce auth, AcceptsAuth codec crypto s sv i nonce auth ∧ auth.userId = u := by
  have heffect := step_effect codec crypto sv i
  unfold findSession at h ⊢
  generalize hsv' : sv.step codec crypto i = sv' at heffect h
  cases heffect with
  | background quiet => exact Or.inl (quiet.sessionsByUser ▸ h)
  | session t x g found alive fresh step moves => exact Or.inl (moves.sessionsByUser ▸ h)
  | auth t x auth found size reads state received presents authenticates =>
    rw [authenticates.sessionsByUser, UnorderedMap.lookup_insert_ite] at h
    split_ifs at h with hu
    · cases h
      exact Or.inr ⟨x.authNonce, auth,
        acceptsAuth_of_effect hsv' found received presents authenticates, hu.symm⟩
    · exact Or.inl h
  | teardown t x sv₁ g found call alive completes fresh moves quiet =>
    left
    rw [quiet.sessionsByUser] at h
    rw [← moves.sessionsByUser]
    rcases unregister_cases sv₁ t with ⟨-, e⟩ | ⟨userId, -, e⟩
    · rw [e] at h
      exact h
    · rw [e] at h
      have herase : (sv₁.sessionsByUser.erase userId).lookup u = some s := h
      rw [UnorderedMap.lookup_erase_ite] at herase
      split_ifs at herase
      exact herase
  | accept sessions sessionsByUser usersBySession below maxConnections activeConnections
      disconnected keys => exact Or.inl (sessionsByUser ▸ h)
  | shutdown event first core untouched sessionsByUser usersBySession activeConnections
      disconnected keys =>
    rw [sessionsByUser] at h
    cases h

theorem loggedOut_step (hwf : WellFormed sv) (hrow : sv.db.users.lookup u = some row)
    (hout : LoggedOut u sv) (hsecret : WithoutSecrets codec crypto u row sv i)
    (hsame : (sv.step codec crypto i).db.account u = sv.db.account u) :
    LoggedOut u (sv.step codec crypto i) where
  unregistered := by
    apply Option.eq_none_iff_forall_ne_some.2
    intro s hs
    rcases findSession_step i hs with hbefore | ⟨nonce, auth, accepts, huser⟩
    · rw [hout.unregistered] at hbefore
      cases hbefore
    · exact not_acceptsAuth hrow hsecret hsame huser accepts
  notEstablished := by
    intro x' hmem hstate' huser'
    obtain ⟨s, hx'⟩ := List.mem_iff_getElem?.1 hmem
    have hprogress := @progress codec crypto sv i hwf s
    rw [core_of_sessions hx'] at hprogress
    rcases hprogress.of_established hstate' with
      ⟨c, hc, hstate, huser⟩ | ⟨nonce, auth, accepts, huser⟩
    · obtain ⟨x, hx, rfl⟩ := core_eq_some.1 hc
      exact hout.notEstablished x (List.mem_of_getElem? hx) hstate (huser.trans huser')
    · exact not_acceptsAuth hrow hsecret hsame (huser.trans huser') accepts

/-! ## Runs -/

/-- From any point of a run at which a user with a row is not logged in: as long as no
`AUTH_RESPONSE` for the user was signed with the key in the row or brings its password, and no
`/resetdb` succeeds, the row and the signed pre-key stay as they are, no session is established for
the user, and none is found for messages to the user. -/
theorem accounts_are_safe (codec : Codec) (crypto : Crypto) (config : Config) (db : Database)
    (before after : List Input) {u : Str} {row : UserRow}
    (hrow : (final (step codec crypto) (start config db) before).db.users.lookup u = some row)
    (hout : LoggedOut u (final (step codec crypto) (start config db) before))
    (hsteps : AllSteps (step codec crypto)
      (fun sv i => WithoutSecrets codec crypto u row sv i ∧ ¬ ResetsUsers codec sv i)
      (final (step codec crypto) (start config db) before) after) :
    AllStates (step codec crypto)
      (fun sv => sv.db.account u =
          (final (step codec crypto) (start config db) before).db.account u ∧ LoggedOut u sv)
      (final (step codec crypto) (start config db) before) after := by
  have hwf := (wellFormed_run codec crypto config db before).final
  generalize final (step codec crypto) (start config db) before = sv₀ at hrow hout hsteps hwf ⊢
  have hall : AllStates (step codec crypto)
      (fun sv => WellFormed sv ∧ sv.db.account u = sv₀.db.account u ∧ LoggedOut u sv) sv₀
      after := by
    refine .of_steps ⟨hwf, rfl, hout⟩ ?_ hsteps
    rintro sv i ⟨hwf, haccount, hout⟩ ⟨hsecret, hreset⟩
    have hrow' : sv.db.users.lookup u = some row := (congrArg Prod.fst haccount).trans hrow
    have hsame := account_step hrow' hout hsecret hreset
    exact ⟨wellFormed_step codec crypto i hwf, hsame.trans haccount,
      loggedOut_step hwf hrow' hout hsecret hsame⟩
  exact hall.mono fun sv h => h.2

/-- `alice` registers, and is disconnected by the admin. -/
def leavingEvents : List Event :=
  loginEvents 0 (str "alice") aliceSignature ++
    [.adminDisconnect (str "alice"), .disconnectRuns 0, .headerRead 0 none]

/-- A client that has no signature of hers tries to log in as `alice`. -/
def intrudingEvents : List Event := loginEvents 1 (str "alice") (List.replicate 64 0)

theorem accounts_are_safe_intruding :
    AllStates (step .proto3 (loginCrypto (str "alice") aliceSignature))
      (fun sv => sv.db.account (str "alice") =
          (final (step .proto3 (loginCrypto (str "alice") aliceSignature))
            (start ⟨10, 10, 10, []⟩ .empty) (leavingEvents.map Event.atZero)).db.account
              (str "alice") ∧ LoggedOut (str "alice") sv)
      (final (step .proto3 (loginCrypto (str "alice") aliceSignature))
        (start ⟨10, 10, 10, []⟩ .empty) (leavingEvents.map Event.atZero))
      (intrudingEvents.map Event.atZero) :=
  @accounts_are_safe .proto3 (loginCrypto (str "alice") aliceSignature) ⟨10, 10, 10, []⟩ .empty
    (leavingEvents.map Event.atZero) (intrudingEvents.map Event.atZero) (str "alice")
    ⟨zeroSeedKey, none, 0⟩ (by decide +kernel) ⟨by decide +kernel, by decide +kernel⟩
    (by decide +kernel)

end Server

end Ircord

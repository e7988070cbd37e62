import IrcordServer.Db.PasswordHashes
import IrcordServer.Net.AllOrNothing
import IrcordServer.Net.Resets
import IrcordServer.Net.UserRows

/-!
# The password policy

`cmd_password` asks for eight characters with an upper-case letter, a lower-case letter and a digit.
A registration, and a login of a user without a password, store the hash of any password that is not
empty.  The stored passwords meet the policy in exactly the runs in which those that come with an
`AUTH_RESPONSE` and are stored do (`passwords_within_policy_iff`).
-/

open Container Run

namespace Ircord

/-- What `cmd_password` asks of a new password. -/
def meetsPolicy (password : Str) : Bool :=
  8 ≤ password.length &&
    (password.any isUpper && password.any isLower && password.any isDigit)

/-! ## Which calls of `set_password` return true -/

namespace CommandHandler

variable (v : Services) (h : CommandHandler) (db : Database) (args : List Str) (cmd : IrcCommand)
  (caller : Caller)

/-- The call that `cmd_password` makes. -/
def cmdPasswordSet : Option PasswordSet :=
  match args with
  | oldPass :: newPass :: _ =>
    if meetsPolicy newPass && UserStore.verifyPassword db v.crypto caller.userId oldPass then
      v.pwhash.map fun hash => ⟨caller.userId, newPass, hash⟩
    else none
  | _ => none

/-- The same for any command. -/
def commandPasswordSet : Option PasswordSet :=
  if dispatched v.now h cmd caller.userId = some .password then cmdPasswordSet v db cmd.args caller
  else none

variable {v h db args cmd caller}

theorem meetsPolicy_of_commandPasswordSet {call : PasswordSet}
    (hcall : commandPasswordSet v h db cmd caller = some call) :
    meetsPolicy call.password = true := by
  unfold commandPasswordSet cmdPasswordSet at hcall
  split_ifs at hcall
  split at hcall
  · split_ifs at hcall with hset
    obtain ⟨hash, -, rfl⟩ := Option.map_eq_some_iff.1 hcall
    exact ((Bool.and_eq_true _ _).mp hset).1
  · cases hcall

section Password

variable {oldPass newPass : Str} {rest : List Str}

theorem cmdPassword_of_strong (hpolicy : meetsPolicy newPass = true) :
    (cmdPassword v h db (oldPass :: newPass :: rest) caller).db =
      (UserStore.updatePassword db v.crypto caller.userId oldPass v.pwhash).2 := by
  obtain ⟨hlength, hclasses⟩ := (Bool.and_eq_true _ _).mp hpolicy
  unfold cmdPassword
  dsimp only
  rw [if_neg (not_lt.2 (of_decide_eq_true hlength)), if_neg (by simp [hclasses])]
  split
  · rename_i db' hupdate
    rw [hupdate]
    rfl
  · rename_i db' hupdate
    rw [hupdate]
    rfl

theorem cmdPassword_of_weak (hpolicy : ¬ meetsPolicy newPass = true) :
    (cmdPassword v h db (oldPass :: newPass :: rest) caller).db = db := by
  unfold cmdPassword
  dsimp only
  split_ifs with hlength hclasses
  · rfl
  · rfl
  · refine absurd ?_ hpolicy
    rw [Bool.not_eq_true', Bool.not_eq_false] at hclasses
    exact (Bool.and_eq_true _ _).mpr ⟨decide_eq_true (not_lt.1 hlength), hclasses⟩

end Password

theorem hashesAfter_cmdPassword (args : List Str) :
    UserStore.HashesAfter db (cmdPasswordSet v db args caller)
      (cmdPassword v h db args caller).db := by
  match args with
  | [] => exact UserStore.hashesAfter_none fun _ => rfl
  | [_] => exact UserStore.hashesAfter_none fun _ => rfl
  | oldPass :: newPass :: rest =>
    unfold cmdPasswordSet
    dsimp only
    by_cases hpolicy : meetsPolicy newPass = true
    · rw [cmdPassword_of_strong hpolicy, hpolicy, Bool.true_and]
      exact UserStore.hashesAfter_updatePassword _ _ _ _ _
    · rw [cmdPassword_of_weak hpolicy, if_neg (by simp [hpolicy])]
      exact UserStore.hashesAfter_none fun _ => rfl

theorem hashesAfter_cmdResetdb :
    UserStore.HashesAfter db none (cmdResetdb h db caller).db := by
  unfold cmdResetdb
  split_ifs
  · exact UserStore.hashesAfter_none fun _ => rfl
  · split
    · exact UserStore.hashesAfter_none fun _ => rfl
    · rename_i db' hdelete
      have hempty : db'.users = ∅ := Database.users_of_deleteAllUsers hdelete
      intro u
      right
      show (db'.users.lookup u).bind _ = none
      rw [hempty]
      rfl

theorem hashesAfter_handleCommand :
    UserStore.HashesAfter db (commandPasswordSet v h db cmd caller)
      (handleCommand v h db cmd caller).db := by
  unfold commandPasswordSet
  cases hkind : dispatched v.now h cmd caller.userId with
  | none =>
    obtain ⟨_, _, _, _, e⟩ := @handleCommand_undispatched v h db cmd caller hkind
    rw [e]
    exact UserStore.hashesAfter_none fun _ => rfl
  | some kind =>
    obtain ⟨_, _, e, -⟩ := @handleCommand_dispatched v h db cmd caller kind hkind
    rw [e]
    by_cases hpassword : kind = .password
    · subst hpassword
      exact hashesAfter_cmdPassword _
    · rw [if_neg fun hsome => hpassword (Option.some.inj hsome)]
      by_cases hresetdb : kind = .resetdb
      · subst hresetdb
        exact hashesAfter_cmdResetdb
      · exact UserStore.hashesAfter_none
          (UserStore.storedHash_of_users_eq (users_call hpassword hresetdb))

end CommandHandler

section Verdict

variable {crypto : Crypto} {d : Draws} {db db' : Database} {auth : AuthResponse}

/-- The call in `handle_auth_response`, once the checks have passed: for a new user, or for a known
one with this key and without a password. -/
def authPasswordSet (db : Database) (auth : AuthResponse) (hash : Option PwHash) :
    Option PasswordSet :=
  let stores := match UserStore.findById db auth.userId with
    | none => true
    | some existing =>
      existing.identityPub == auth.identityPub && !UserStore.hasPassword db auth.userId
  if !auth.password.isEmpty && stores then
    hash.map fun hash => ⟨auth.userId, auth.password, hash⟩
  else none

theorem password_of_authPasswordSet {hash : Option PwHash} {call : PasswordSet}
    (h : authPasswordSet db auth hash = some call) : call.password = auth.password := by
  unfold authPasswordSet at h
  dsimp only at h
  split_ifs at h
  obtain ⟨_, -, rfl⟩ := Option.map_eq_some_iff.1 h
  rfl

theorem users_storeSignedPrekey (h : storeSignedPrekey d db auth = .ok db') :
    db'.users = db.users := by
  unfold storeSignedPrekey at h
  split_ifs at h
  · cases h
    rfl
  · exact Database.users_replaceSignedPrekey db h

theorem hashesAfter_registerUser (hkey : auth.identityPub ≠ [])
    (hnew : UserStore.findById db auth.userId = none) :
    UserStore.HashesAfter db (authPasswordSet db auth d.pwhash)
      ((registerUser d db auth).tables.getD db) := by
  obtain ⟨db₁, hinsert, hkeys⟩ := @UserStore.insert_ok db auth.userId auth.identityPub d.nowUnix
    hkey (UserStore.findById_eq_none.1 hnew)
  have hrow : auth.userId ∈ db₁.users :=
    UserStore.mem_users_of_identityKey (by rw [hkeys, if_pos rfl])
  obtain ⟨db₂, hprekey, husers⟩ := @storeSignedPrekey_ok d db₁ auth hrow
  have hsame : ∀ u, UserStore.storedHash db₂ u = UserStore.storedHash db u := fun u =>
    (UserStore.storedHash_of_users_eq husers u).trans (UserStore.storedHash_insert hinsert u)
  unfold registerUser authPasswordSet
  rw [hinsert, hnew]
  dsimp only
  rw [hprekey]
  dsimp only
  by_cases hempty : auth.password.isEmpty = true
  · rw [if_pos hempty, if_neg (by simp [hempty])]
    exact UserStore.hashesAfter_none hsame
  · rw [if_neg hempty, if_pos (by simp [hempty])]
    rw [← husers] at hrow
    exact (UserStore.hashesAfter_setPassword hrow auth.password d.pwhash).of_before hsame

/-- A recovery keeps the hash. -/
theorem storedHash_recoverIdentityKey (u : Str) :
    UserStore.storedHash ((recoverIdentityKey crypto d db auth).tables.getD db) u =
      UserStore.storedHash db u := by
  unfold recoverIdentityKey
  split_ifs
  · dsimp only
    split
    · rfl
    · rename_i db₁ hupdate
      have hsame : UserStore.storedHash db₁ u = UserStore.storedHash db u :=
        UserStore.storedHash_updateIdentityKey hupdate u
      split
      · exact hsame
      · rename_i db₂ hprekey
        exact (UserStore.storedHash_of_users_eq (users_storeSignedPrekey hprekey) u).trans hsame
  · rfl
  · rfl

theorem hashesAfter_registerOrVerify (hkey : auth.identityPub ≠ []) :
    UserStore.HashesAfter db (authPasswordSet db auth d.pwhash)
      ((registerOrVerify crypto d db auth).tables.getD db) := by
  unfold registerOrVerify
  cases hfound : UserStore.findById db auth.userId with
  | none => exact hashesAfter_registerUser hkey hfound
  | some existing =>
    obtain ⟨row, hrow, -⟩ := UserStore.findById_eq_some hfound
    unfold authPasswordSet
    rw [hfound]
    dsimp only
    by_cases hsame : existing.identityPub = auth.identityPub
    · rw [if_neg (not_not_intro hsame), hsame, beq_self_eq_true, Bool.true_and]
      split_ifs with hbackfill
      · exact UserStore.hashesAfter_setPassword (UnorderedMap.mem_iff_lookup.2 ⟨row, hrow⟩) _ _
      · exact UserStore.hashesAfter_none fun _ => rfl
    · rw [if_pos hsame, if_neg (by simp [hsame])]
      exact UserStore.hashesAfter_none storedHash_recoverIdentityKey

end Verdict

namespace Server

section Definitions

variable (codec : Codec) (crypto : Crypto) (d : Draws) (sv : Server)

/-- The call in the handler of an envelope from the session `s`. -/
def messagePasswordSet (s : SessionId) (c : SessionCore) (env : Envelope) : Option PasswordSet :=
  match env.type with
  | .authResponse =>
    if c.state = .authPending then
      (env.parsePayload codec.authResponse).bind fun auth =>
        if Presents crypto sv c.authNonce auth then authPasswordSet sv.db auth d.pwhash else none
    else none
  | .command =>
    if c.state = .established then
      (env.parsePayload codec.ircCommand).bind fun cmd =>
        CommandHandler.commandPasswordSet (sv.services codec crypto d) sv.commands sv.db cmd
          ⟨s, c.userId⟩
    else none
  | _ => none

/-- The call of `set_password` in a step. -/
def passwordSet (i : Input) : Option PasswordSet :=
  match i.event with
  | .payloadRead s _ =>
    (sv.core s).bind fun c => (delivered codec s sv i).bind fun env =>
      messagePasswordSet codec crypto i.draws sv s c env
  | _ => none

/-- In every `AUTH_RESPONSE` that passes the checks of `handle_auth_response` and brings a password
that is stored, the password meets the policy. -/
def PresentsStrong (i : Input) : Prop :=
  ∀ (s : SessionId) (c : SessionCore) (auth : AuthResponse), sv.core s = some c →
    receivedAuth codec s sv i = some auth → Presents crypto sv c.authNonce auth →
    (authPasswordSet sv.db auth i.draws.pwhash).isSome = true → meetsPolicy auth.password = true

end Definitions

section Steps

variable {codec : Codec} {crypto : Crypto} {d : Draws} {sv : Server} {i : Input} {s : SessionId}
  {x : Session} {env : Envelope}

theorem users_onVerdict (userId : Str) (verdict : AuthVerdict) :
    (sv.onVerdict codec d s userId verdict).db.users = (verdict.tables.getD sv.db).users := by
  cases verdict with
  | accept db =>
    rw [onVerdict, users_establish]
    rfl
  | fail code message =>
    rw [onVerdict]
    exact speaks_users.authFail sv s _ _
  | insertFailed =>
    rw [onVerdict]
    exact speaks_users.sendError_disconnect sv s _ _
  | threw db => rfl

theorem hashesAfter_handleAuthResponse (auth : AuthResponse) :
    UserStore.HashesAfter sv.db
      (if Presents crypto sv x.authNonce auth then authPasswordSet sv.db auth d.pwhash else none)
      (sv.handleAuthResponse codec crypto d s x auth).db := by
  split_ifs with hpresents
  · rw [handleAuthResponse_presented hpresents]
    exact (hashesAfter_registerOrVerify hpresents.key_ne_nil).of_after
      (UserStore.storedHash_of_users_eq (users_onVerdict _ _))
  · rw [db_of_refused hpresents]
    exact UserStore.hashesAfter_none fun _ => rfl

theorem hashesAfter_handleCommand (cmd : IrcCommand) :
    UserStore.HashesAfter sv.db
      (CommandHandler.commandPasswordSet (sv.services codec crypto d) sv.commands sv.db cmd
        ⟨s, x.userId⟩)
      (sv.handleCommand codec crypto d s x cmd).db := by
  have hdb : (sv.handleCommand codec crypto d s x cmd).db =
      (sv.commands.handleCommand (sv.services codec crypto d) sv.db cmd ⟨s, x.userId⟩).db :=
    db_run _ _
  rw [hdb]
  exact CommandHandler.hashesAfter_handleCommand

theorem hashesAfter_of_users_eq {db db' : Database} (h : db'.users = db.users) :
    UserStore.HashesAfter db none db' :=
  UserStore.hashesAfter_none (UserStore.storedHash_of_users_eq h)

theorem hashesAfter_handleEnvelope (env : Envelope) :
    UserStore.HashesAfter sv.db (messagePasswordSet codec crypto d sv s x.core env)
      (sv.handleEnvelope codec crypto d s x env).db := by
  by_cases hauth : env.type = .authResponse
  · unfold messagePasswordSet handleEnvelope
    rw [hauth]
    dsimp only
    by_cases hstate : x.state = .authPending
    · rw [if_pos hstate, if_pos (show x.core.state = .authPending from hstate)]
      cases env.parsePayload codec.authResponse with
      | none => exact hashesAfter_of_users_eq (speaks_users.sendError_disconnect sv s _ _)
      | some auth => exact hashesAfter_handleAuthResponse auth
    · rw [if_neg hstate, if_neg (show ¬ x.core.state = .authPending from hstate)]
      exact hashesAfter_of_users_eq rfl
  · by_cases hcommand : env.type = .command
    · unfold messagePasswordSet handleEnvelope ifAuthenticated handlePayload
      rw [hcommand]
      dsimp only
      by_cases hstate : x.state = .established
      · rw [if_pos hstate, if_pos (show x.core.state = .established from hstate)]
        cases env.parsePayload codec.ircCommand with
        | none => exact hashesAfter_of_users_eq (speaks_users.sendError sv s _ _)
        | some cmd => exact hashesAfter_handleCommand cmd
      · rw [if_neg hstate, if_neg (show ¬ x.core.state = .established from hstate)]
        exact hashesAfter_of_users_eq (speaks_users.sendError sv s _ _)
    · have hnone : messagePasswordSet codec crypto d sv s x.core env = none := by
        unfold messagePasswordSet
        split
        · rename_i htype
          exact absurd htype hauth
        · rename_i htype
          exact absurd htype hcommand
        · rfl
      rw [hnone]
      exact hashesAfter_of_users_eq (users_handleEnvelope hauth hcommand)

/-- The end of the read does not matter to the handler. -/
theorem messagePasswordSet_stopReading (c : SessionCore) :
    messagePasswordSet codec crypto d (sv.modify s fun x => { x with reading := none }) s c env =
      messagePasswordSet codec crypto d sv s c env := by
  have hpresents (auth : AuthResponse) : Presents crypto
      (sv.modify s fun x => { x with reading := none }) c.authNonce auth ↔
        Presents crypto sv c.authNonce auth :=
    ⟨fun h => ⟨h.userId, h.available, h.keyLength, h.signatureLength, h.verified⟩,
      fun h => ⟨h.userId, h.available, h.keyLength, h.signatureLength, h.verified⟩⟩
  unfold messagePasswordSet
  simp only [hpresents]
  rfl

theorem passwordSet_of_delivered (hdelivered : delivered codec s sv i = some env)
    (found : sv.sessions[s]? = some x) :
    passwordSet codec crypto sv i = messagePasswordSet codec crypto i.draws sv s x.core env := by
  obtain ⟨data, hevent, -, -⟩ := delivered_eq_some hdelivered
  unfold passwordSet
  rw [hevent]
  dsimp only
  rw [core_of_sessions found, hdelivered]
  rfl

theorem passwordSet_of_not_delivered (h : ∀ s, delivered codec s sv i = none) :
    passwordSet codec crypto sv i = none := by
  unfold passwordSet
  split
  · rename_i s data hevent
    rw [h s]
    cases sv.core s <;> rfl
  · rfl

/-- What a step does to the hashes. -/
theorem hashesAfter_step (codec : Codec) (crypto : Crypto) (sv : Server) (i : Input) :
    UserStore.HashesAfter sv.db (passwordSet codec crypto sv i) (sv.step codec crypto i).db := by
  by_cases hdelivered : ∃ s env, delivered codec s sv i = some env
  · obtain ⟨s, env, hdelivered⟩ := hdelivered
    obtain ⟨x, found, e⟩ := @step_of_delivered codec crypto sv s i env hdelivered
    rw [e, passwordSet_of_delivered hdelivered found, ← messagePasswordSet_stopReading]
    exact hashesAfter_handleEnvelope env
  · have hnone : ∀ s, delivered codec s sv i = none := by
      intro s
      apply Option.eq_none_iff_forall_ne_some.2
      exact fun env h => hdelivered ⟨s, env, h⟩
    rw [passwordSet_of_not_delivered hnone]
    exact hashesAfter_of_users_eq (users_step_of_not_delivered hnone)

/-! ## Where the password comes from -/

theorem passwordSet_of_received {c : SessionCore} {auth : AuthResponse}
    (hc : sv.core s = some c) (received : receivedAuth codec s sv i = some auth)
    (presents : Presents crypto sv c.authNonce auth) :
    passwordSet codec crypto sv i = authPasswordSet sv.db auth i.draws.pwhash := by
  obtain ⟨env, hdelivered, hstate, htype, hparse⟩ := receivedAuth_eq_some hc received
  obtain ⟨x, found, rfl⟩ := core_eq_some.1 hc
  rw [passwordSet_of_delivered hdelivered found]
  unfold messagePasswordSet
  rw [htype]
  dsimp only
  rw [if_pos hstate, hparse, Option.bind_some, if_pos presents]

/-- A password that is stored meets the policy, or it came with an `AUTH_RESPONSE`. -/
theorem passwordSet_cases {call : PasswordSet}
    (hcall : passwordSet codec crypto sv i = some call) :
    meetsPolicy call.password = true ∨
      ∃ s c auth, sv.core s = some c ∧ receivedAuth codec s sv i = some auth ∧
        Presents crypto sv c.authNonce auth ∧
        authPasswordSet sv.db auth i.draws.pwhash = some call := by
  unfold passwordSet at hcall
  split at hcall
  · rename_i s _ _
    obtain ⟨c, hc, hcall⟩ := Option.bind_eq_some_iff.1 hcall
    obtain ⟨env, hdelivered, hcall⟩ := Option.bind_eq_some_iff.1 hcall
    unfold messagePasswordSet at hcall
    split at hcall
    · rename_i htype
      split_ifs at hcall with hstate
      obtain ⟨auth, hparse, hcall⟩ := Option.bind_eq_some_iff.1 hcall
      split_ifs at hcall with presents
      right
      refine ⟨s, c, auth, hc, ?_, presents, hcall⟩
      unfold receivedAuth
      rw [hc, hdelivered]
      dsimp only
      rw [if_pos ⟨hstate, htype⟩, hparse]
    · split_ifs at hcall
      obtain ⟨cmd, -, hcall⟩ := Option.bind_eq_some_iff.1 hcall
      exact Or.inl (CommandHandler.meetsPolicy_of_commandPasswordSet hcall)
    · cases hcall
  · cases hcall

theorem presentsStrong_of_none (hset : passwordSet codec crypto sv i = none) :
    PresentsStrong codec crypto sv i := by
  intro s c auth hc received presents hstored
  rw [← passwordSet_of_received hc received presents, hset] at hstored
  cases hstored

/-- A step that stores a password. -/
theorem presentsStrong_of_some {call : PasswordSet}
    (hset : passwordSet codec crypto sv i = some call) :
    PresentsStrong codec crypto sv i ↔ meetsPolicy call.password = true := by
  constructor
  · intro h
    rcases passwordSet_cases hset with hpolicy | ⟨s, c, auth, hc, received, presents, hcall⟩
    · exact hpolicy
    · rw [password_of_authPasswordSet hcall]
      exact h s c auth hc received presents (by rw [hcall]; rfl)
  · intro hpolicy s c auth hc received presents _
    have hcall := passwordSet_of_received hc received presents
    rw [hset] at hcall
    rwa [← password_of_authPasswordSet hcall.symm]

end Steps

end Server

/-! ## The passwords behind the stored hashes -/

/-- The server, beside the password of the last call of `set_password` for each user. -/
structure PasswordLedger where
  server : Server
  passwords : UnorderedMap Str Str

namespace PasswordLedger

section Definitions

variable (codec : Codec) (crypto : Crypto)

def step (l : PasswordLedger) (i : Input) : PasswordLedger where
  server := l.server.step codec crypto i
  passwords :=
    match l.server.passwordSet codec crypto i with
    | some call => l.passwords.insert call.userId call.password
    | none => l.passwords

/-- Every stored hash is that of a password that meets the policy. -/
def WithinPolicy (l : PasswordLedger) : Prop :=
  ∀ u, UserStore.hasPassword l.server.db u = true →
    ∃ password, l.passwords.lookup u = some password ∧ meetsPolicy password = true

end Definitions

variable {codec : Codec} {crypto : Crypto} {l : PasswordLedger} {i : Input}

theorem withinPolicy_step_of_none (hset : l.server.passwordSet codec crypto i = none)
    (h : l.WithinPolicy) : (l.step codec crypto i).WithinPolicy := by
  have hashes := Server.hashesAfter_step codec crypto l.server i
  rw [hset] at hashes
  intro u hu
  have hpasswords : (l.step codec crypto i).passwords = l.passwords := by
    unfold step
    rw [hset]
  rw [hpasswords]
  apply h u
  unfold UserStore.hasPassword at hu ⊢
  rcases hashes u with hsame | hgone
  · rwa [← hsame]
  · rw [show (l.step codec crypto i).server.db = (l.server.step codec crypto i).db from rfl,
      hgone] at hu
    cases hu

theorem withinPolicy_step_of_some {call : PasswordSet}
    (hset : l.server.passwordSet codec crypto i = some call) (h : l.WithinPolicy) :
    (l.step codec crypto i).WithinPolicy ↔ meetsPolicy call.password = true := by
  have hashes := Server.hashesAfter_step codec crypto l.server i
  rw [hset] at hashes
  have hhas (u : Str) : UserStore.hasPassword (l.step codec crypto i).server.db u =
      if u = call.userId then true else UserStore.hasPassword l.server.db u := by
    show (UserStore.storedHash (l.server.step codec crypto i).db u).isSome = _
    rw [hashes u]
    split_ifs <;> rfl
  have hlookup (u : Str) : (l.step codec crypto i).passwords.lookup u =
      if u = call.userId then some call.password else l.passwords.lookup u := by
    unfold step
    rw [hset]
    exact UnorderedMap.lookup_insert_ite _ _ _ _
  constructor
  · intro hafter
    obtain ⟨password, hpassword, hpolicy⟩ :=
      hafter call.userId (by rw [hhas, if_pos rfl])
    rw [hlookup, if_pos rfl] at hpassword
    rwa [Option.some.inj hpassword]
  · intro hpolicy u hu
    rw [hlookup]
    by_cases huser : u = call.userId
    · exact ⟨call.password, if_pos huser, hpolicy⟩
    · rw [hhas, if_neg huser] at hu
      rw [if_neg huser]
      exact h u hu

theorem withinPolicy_step_iff (codec : Codec) (crypto : Crypto) (l : PasswordLedger) (i : Input)
    (h : l.WithinPolicy) :
    (l.step codec crypto i).WithinPolicy ↔ l.server.PresentsStrong codec crypto i := by
  cases hset : l.server.passwordSet codec crypto i with
  | none =>
    exact iff_of_true (withinPolicy_step_of_none hset h) (Server.presentsStrong_of_none hset)
  | some call =>
    exact (withinPolicy_step_of_some hset h).trans (Server.presentsStrong_of_some hset).symm

/-- The stored passwords meet the policy throughout a run exactly if they do so at the start, and so
does every password that is stored for an `AUTH_RESPONSE`. -/
theorem passwords_within_policy_iff (codec : Codec) (crypto : Crypto) (config : Config)
    (db : Database) (passwords : UnorderedMap Str Str) (is : List Input) :
    AllStates (step codec crypto) WithinPolicy ⟨.start config db, passwords⟩ is ↔
      WithinPolicy ⟨.start config db, passwords⟩ ∧
        AllSteps (Server.step codec crypto) (Server.PresentsStrong codec crypto) (.start config db)
          is := by
  have hserver := @allSteps_map _ _ (step codec crypto) _ (Server.step codec crypto)
    PasswordLedger.server (Server.PresentsStrong codec crypto) (fun _ _ => rfl)
    ⟨.start config db, passwords⟩ is
  have hrun (h : WithinPolicy ⟨.start config db, passwords⟩) :=
    @allStates_iff_allSteps _ _ (step codec crypto) WithinPolicy
      (fun l i => l.server.PresentsStrong codec crypto i) ⟨.start config db, passwords⟩ is h
      fun l i h => withinPolicy_step_iff codec crypto l i h
  rw [← hserver]
  constructor
  · intro hall
    exact ⟨hall.head, (hrun hall.head).1 hall⟩
  · rintro ⟨h, hall⟩
    exact (hrun h).2 hall

/-! ## A weak password -/

/-- What `crypto_pwhash_str` returned for the password. -/
def drawnHash : PwHash := ⟨List.replicate 128 1, List.length_replicate⟩

/-- `alice` registers, with the password `a`. -/
def weakEvents : List Event :=
  [.accept (str "127.0.0.1"), .handshakeDone 0 true] ++
    frameEvents 0 .hello (Codec.proto3.hello.serialize ⟨1, []⟩) ++
    frameEvents 0 .authResponse (Codec.proto3.authResponse.serialize
      ⟨str "alice", zeroSeedKey, Server.aliceSignature, [], [], str "a"⟩)

def weakRun : List Input :=
  weakEvents.map fun event =>
    { event.atZero with draws := { event.atZero.draws with pwhash := some drawnHash } }

/-- The ledger at the end of the run. -/
def afterWeak : PasswordLedger :=
  final (step .proto3 (loginCrypto (str "alice") Server.aliceSignature))
    ⟨.start ⟨10, 10, 10, []⟩ .empty, ∅⟩ weakRun

/-- The hash of the password is in the table. -/
theorem not_withinPolicy_weakRun :
    ¬ AllStates (step .proto3 (loginCrypto (str "alice") Server.aliceSignature)) WithinPolicy
      ⟨.start ⟨10, 10, 10, []⟩ .empty, ∅⟩ weakRun := by
  intro hall
  have hwithin : afterWeak.WithinPolicy := hall.final
  have hstored : UserStore.storedHash afterWeak.server.db (str "alice") = some drawnHash.1 := by
    decide +kernel
  have hpassword : afterWeak.passwords.lookup (str "alice") = some (str "a") := by decide +kernel
  obtain ⟨password, hlookup, hpolicy⟩ :=
    hwithin (str "alice") (by rw [UserStore.hasPassword, hstored]; rfl)
  rw [hpassword] at hlookup
  cases hlookup
  exact absurd hpolicy (by decide)

end PasswordLedger

end Ircord

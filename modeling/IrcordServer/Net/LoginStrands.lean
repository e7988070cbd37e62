import IrcordServer.Net.Apart
import IrcordServer.Net.NicknameCases
import IrcordServer.Net.Strands

/-!
# Logins that overlap

`handle_auth_response` asks `is_nickname_available` under the lock of the registry and takes the
lock again in `on_session_authenticated`.  The signature and the tables come in between, and so do
the handlers of other sessions.  Here a login is four steps, and what other handlers do outside the
registry may be anything.
-/

open Container Run

namespace Ircord

/-- Where `handle_auth_response` stands between two steps. -/
inductive LoginPoint
  /-- The name was available. -/
  | available (auth : AuthResponse)
  /-- The session is established, and `on_session_authenticated` comes next. -/
  | established (userId : Str)
  | authenticated (userId : Str)
  deriving DecidableEq

/-- The server with the logins under way. -/
structure Logins where
  sv : Server
  points : UnorderedMap SessionId LoginPoint

inductive LoginAct
  /-- `handle_auth_response`, up to `is_nickname_available`. -/
  | check (s : SessionId) (auth : AuthResponse)
  /-- The signature, the tables, and the rest up to `on_session_authenticated`. -/
  | verify (s : SessionId)
  | authenticate (s : SessionId)
  /-- The rest of `handle_auth_response`. -/
  | finish (s : SessionId)
  /-- `on_session_disconnected`. -/
  | disconnected (s : SessionId)
  | shutdown
  /-- Any other handler; it leaves the server like this but for the registry. -/
  | elsewhere (rest : Server)

structure LoginMove where
  draws : Draws
  act : LoginAct

namespace Logins

section Definitions

variable (codec : Codec) (crypto : Crypto) (d : Draws) (st : Logins) (s : SessionId)

def start (sv : Server) : Logins := ⟨sv, ∅⟩

/-- No login of the session is under way. -/
def Idle : Prop := st.points.lookup s = none

instance : Decidable (st.Idle s) := inferInstanceAs (Decidable (_ = _))

/-- A refused login is over. -/
def check (auth : AuthResponse) : Logins :=
  match st.sv.sessions[s]? with
  | none => st
  | some x =>
    if st.Idle s ∧ x.state = .authPending then
      if isValidUserId auth.userId && st.sv.isNicknameAvailable auth.userId then
        { st with points := st.points.insert s (.available auth) }
      else { st with sv := st.sv.handleAuthResponse codec crypto d s x auth }
    else st

/-- The checks of `handle_auth_response` behind `is_nickname_available`. -/
def verifyAuth (sv : Server) (x : Session) (auth : AuthResponse) : Except Server Database :=
  if auth.identityPub.length ≠ publicKeyBytes then
    .error ((sv.sendError codec d s 4007 "Invalid identity_pub length").disconnect s)
  else if auth.signature.length ≠ signatureBytes then
    .error ((sv.sendError codec d s 4008 "Invalid signature length").disconnect s)
  else if !crypto.signVerifyDetached auth.signature (x.authNonce ++ auth.userId)
      auth.identityPub then
    .error (sv.authFail codec d s 4009 (str "Signature verification failed"))
  else
    match registerOrVerify crypto d sv.db auth with
    | .accept db => .ok db
    | verdict => .error (sv.onVerdict codec d s auth.userId verdict)

def verify : Logins :=
  match st.points.lookup s, st.sv.sessions[s]? with
  | some (.available auth), some x =>
    match verifyAuth codec crypto d s st.sv x auth with
    | .error sv => ⟨sv, st.points.erase s⟩
    | .ok db =>
      ⟨{ st.sv with db := db }.enterEstablished codec d s auth.userId,
        st.points.insert s (.established auth.userId)⟩
  | _, _ => st

def authenticate : Logins :=
  match st.points.lookup s with
  | some (.established userId) =>
    ⟨st.sv.onSessionAuthenticated codec d s userId, st.points.insert s (.authenticated userId)⟩
  | _ => st

def finish : Logins :=
  match st.points.lookup s with
  | some (.authenticated userId) =>
    ⟨st.sv.startTraffic codec d s userId, st.points.erase s⟩
  | _ => st

def step (st : Logins) (m : LoginMove) : Logins :=
  match m.act with
  | .check s auth => st.check codec crypto m.draws s auth
  | .verify s => st.verify codec crypto m.draws s
  | .authenticate s => st.authenticate codec m.draws s
  | .finish s => st.finish codec m.draws s
  | .disconnected s =>
    if st.Idle s then { st with sv := st.sv.onSessionDisconnected codec m.draws s } else st
  | .shutdown => { st with sv := st.sv.onShutdown }
  | .elsewhere rest =>
    { st with
      sv := { rest with
        sessionsByUser := st.sv.sessionsByUser
        usersBySession := st.sv.usersBySession } }

/-- No two registered names are equal under `normalize_nickname`. -/
def KeysApart (st : Logins) : Prop :=
  ∀ u ∈ st.sv.sessionsByUser, ∀ v ∈ st.sv.sessionsByUser,
    normalizeNickname u = normalizeNickname v → u = v

/-- The step registers no user who has a registered session. -/
def ReplacesNobody (st : Logins) (m : LoginMove) : Prop :=
  ∀ s userId, m.act = .authenticate s → st.points.lookup s = some (.established userId) →
    st.sv.sessionsByUser.lookup userId = none

/-- `is_nickname_available` would still answer yes in `on_session_authenticated`. -/
def StillAvailable (st : Logins) (m : LoginMove) : Prop :=
  ∀ s userId, m.act = .authenticate s → st.points.lookup s = some (.established userId) →
    st.sv.isNicknameAvailable userId = true

end Definitions

variable {codec : Codec} {crypto : Crypto} {d : Draws} {st : Logins} {s : SessionId} {x : Session}
  {auth : AuthResponse} {m : LoginMove}

/-! ## The steps make up the handler -/

/-- How the handler ends, by the checks behind `is_nickname_available`. -/
theorem handleAuthResponse_of_verifyAuth {sv : Server} (hvalid : isValidUserId auth.userId = true)
    (havailable : sv.isNicknameAvailable auth.userId = true) :
    (∀ sv', verifyAuth codec crypto d s sv x auth = .error sv' →
      sv.handleAuthResponse codec crypto d s x auth = sv') ∧
    ∀ db, verifyAuth codec crypto d s sv x auth = .ok db →
      sv.handleAuthResponse codec crypto d s x auth =
        Server.establish codec d { sv with db := db } s auth.userId := by
  have hvalid' : ¬ (!isValidUserId auth.userId) = true := by simp [hvalid]
  have havailable' : ¬ (!sv.isNicknameAvailable auth.userId) = true := by simp [havailable]
  unfold Server.handleAuthResponse verifyAuth
  rw [if_neg hvalid', if_neg havailable']
  split_ifs
  · exact ⟨fun _ h => Except.error.inj h, fun _ h => (by cases h)⟩
  · exact ⟨fun _ h => Except.error.inj h, fun _ h => (by cases h)⟩
  · exact ⟨fun _ h => Except.error.inj h, fun _ h => (by cases h)⟩
  · cases registerOrVerify crypto d sv.db auth with
    | accept db => exact ⟨fun _ h => (by cases h), fun _ h => (by cases h; rfl)⟩
    | fail code message => exact ⟨fun _ h => Except.error.inj h, fun _ h => (by cases h)⟩
    | insertFailed => exact ⟨fun _ h => Except.error.inj h, fun _ h => (by cases h)⟩
    | threw db => exact ⟨fun _ h => Except.error.inj h, fun _ h => (by cases h)⟩

/-- After the last step of a login that is over, the others do nothing. -/
theorem finish_authenticate_of_idle (hpoint : st.points.lookup s = none) :
    (st.authenticate codec d s).finish codec d s = st := by
  have hauthenticate : st.authenticate codec d s = st := by
    unfold authenticate
    rw [hpoint]
  rw [hauthenticate]
  unfold finish
  rw [hpoint]

theorem finish_authenticate {userId : Str}
    (h : st.points.lookup s = some (.established userId)) :
    ((st.authenticate codec d s).finish codec d s).sv =
      (st.sv.onSessionAuthenticated codec d s userId).startTraffic codec d s userId := by
  unfold authenticate
  rw [h]
  unfold finish
  dsimp only
  rw [AList.lookup_insert]

/-- The four steps, one right after the other, are `handle_auth_response`. -/
theorem finish_authenticate_verify_check (hx : st.sv.sessions[s]? = some x) (hidle : st.Idle s)
    (hstate : x.state = .authPending) :
    ((((st.check codec crypto d s auth).verify codec crypto d s).authenticate codec d s).finish
      codec d s).sv = st.sv.handleAuthResponse codec crypto d s x auth := by
  unfold check
  rw [hx]
  dsimp only
  rw [if_pos ⟨hidle, hstate⟩]
  by_cases hfree : (isValidUserId auth.userId && st.sv.isNicknameAvailable auth.userId) = true
  · rw [if_pos hfree]
    obtain ⟨hvalid, havailable⟩ := (Bool.and_eq_true _ _).mp hfree
    obtain ⟨herror, hok⟩ := @handleAuthResponse_of_verifyAuth codec crypto d s x auth st.sv hvalid
      havailable
    unfold verify
    dsimp only
    rw [AList.lookup_insert, hx]
    dsimp only
    cases hverify : verifyAuth codec crypto d s st.sv x auth with
    | error sv =>
      rw [herror sv hverify]
      dsimp only
      rw [finish_authenticate_of_idle (AList.lookup_erase _ _)]
    | ok db =>
      rw [hok db hverify]
      exact finish_authenticate (AList.lookup_insert _)
  · rw [if_neg hfree]
    have hpoint : st.points.lookup s = none := hidle
    unfold verify
    dsimp only
    rw [hpoint]
    dsimp only
    have hover := @finish_authenticate_of_idle codec d
      ⟨st.sv.handleAuthResponse codec crypto d s x auth, st.points⟩ s hpoint
    exact congrArg Logins.sv hover

/-! ## The registry after a step -/

theorem sessionsByUser_of_error {sv sv' : Server}
    (h : verifyAuth codec crypto d s sv x auth = .error sv') :
    sv'.sessionsByUser = sv.sessionsByUser := by
  have hapart := Server.apart_sessionsByUser
  unfold verifyAuth at h
  split_ifs at h
  · cases h
    exact hapart.sendError_disconnect sv s _ _
  · cases h
    exact hapart.sendError_disconnect sv s _ _
  · cases h
    exact hapart.authFail sv s _ _
  · cases hverdict : registerOrVerify crypto d sv.db auth with
    | accept db => rw [hverdict] at h; cases h
    | fail code message =>
      rw [hverdict] at h
      cases h
      exact hapart.authFail sv s _ _
    | insertFailed =>
      rw [hverdict] at h
      cases h
      exact hapart.sendError_disconnect sv s _ _
    | threw db =>
      rw [hverdict] at h
      cases h
      exact hapart.db sv db

/-- A step registers the user of a login that has got there, or registers nobody. -/
theorem sessionsByUser_step (codec : Codec) (crypto : Crypto) (st : Logins) (m : LoginMove) :
    (∃ s userId, m.act = .authenticate s ∧ st.points.lookup s = some (.established userId) ∧
      (st.step codec crypto m).sv.sessionsByUser = (st.sv.register s userId).sessionsByUser) ∨
    ((∀ s userId, m.act = .authenticate s → st.points.lookup s ≠ some (.established userId)) ∧
      ∀ u ∈ (st.step codec crypto m).sv.sessionsByUser, u ∈ st.sv.sessionsByUser) := by
  unfold step
  cases hact : m.act with
  | check s auth =>
    refine Or.inr ⟨fun _ _ h => (by cases h), fun u hu => ?_⟩
    unfold check at hu
    dsimp only at hu
    split at hu
    · exact hu
    · split_ifs at hu with hidle hfree
      · exact hu
      · have hnot (x : Session) : ¬ Server.Presents crypto st.sv x.authNonce auth := fun h =>
          hfree ((Bool.and_eq_true _ _).mpr ⟨h.userId, h.available⟩)
        rw [(Server.handleAuthResponse_refused (hnot _)).sessionsByUser] at hu
        exact hu
      · exact hu
  | verify s =>
    refine Or.inr ⟨fun _ _ h => (by cases h), fun u hu => ?_⟩
    unfold verify at hu
    dsimp only at hu
    split at hu
    · rename_i auth x _ _
      split at hu
      · rename_i sv herror
        have hu' : u ∈ sv.sessionsByUser := hu
        rwa [sessionsByUser_of_error herror] at hu'
      · rename_i db _
        have hu' : u ∈ ({ st.sv with db := db }.enterEstablished codec m.draws s
          auth.userId).sessionsByUser := hu
        rwa [Server.apart_sessionsByUser.enterEstablished] at hu'
    · exact hu
  | authenticate s =>
    unfold authenticate
    dsimp only
    split
    · rename_i userId hpoint
      exact Or.inl ⟨s, userId, rfl, hpoint,
        (@Server.quiet_sendPresenceSnapshot False codec m.draws _ s _).sessionsByUser⟩
    · rename_i hpoint
      refine Or.inr ⟨fun t userId h hlookup => ?_, fun u hu => hu⟩
      cases h
      exact hpoint userId hlookup
  | finish s =>
    refine Or.inr ⟨fun _ _ h => (by cases h), fun u hu => ?_⟩
    unfold finish at hu
    dsimp only at hu
    split at hu
    · rename_i userId _
      have hu' : u ∈ (st.sv.startTraffic codec m.draws s userId).sessionsByUser := hu
      rwa [Server.apart_sessionsByUser.startTraffic] at hu'
    · exact hu
  | disconnected s =>
    refine Or.inr ⟨fun _ _ h => (by cases h), fun u hu => ?_⟩
    dsimp only at hu
    split_ifs at hu
    · have hu' : u ∈ (st.sv.onSessionDisconnected codec m.draws s).sessionsByUser := hu
      rw [Server.quiet_unregister_onSessionDisconnected.sessionsByUser] at hu'
      rcases Server.unregister_cases st.sv s with ⟨-, e⟩ | ⟨userId, -, e⟩
      · rw [e] at hu'
        exact hu'
      · rw [e] at hu'
        exact (AList.mem_erase.1 hu').2
    · exact hu
  | shutdown =>
    refine Or.inr ⟨fun _ _ h => (by cases h), fun u hu => ?_⟩
    have hu' : u ∈ st.sv.onShutdown.sessionsByUser := hu
    unfold Server.onShutdown at hu'
    split_ifs at hu'
    · exact hu'
    · exact absurd hu' (AList.notMem_empty u)
  | elsewhere rest => exact Or.inr ⟨fun _ _ h => (by cases h), fun u hu => hu⟩

/-! ## Runs -/

theorem isNicknameAvailable_iff {sv : Server} {nickname : Str} :
    sv.isNicknameAvailable nickname = true ↔
      ∀ u ∈ sv.sessionsByUser, normalizeNickname u ≠ normalizeNickname nickname := by
  unfold Server.isNicknameAvailable
  rw [List.all_eq_true]
  simp only [bne_iff_ne, AList.mem_keys]

theorem keysApart_iff :
    st.KeysApart ↔ Set.InjOn normalizeNickname {u | u ∈ st.sv.sessionsByUser} :=
  ⟨fun h u hu v hv he => h u hu v hv he, fun h _ hu _ hv he => h hu hv he⟩

/-- Registering a user without an entry keeps the names apart exactly if the name is available. -/
theorem keysApart_register_iff {sv' : Server} {userId : Str} (h : st.KeysApart)
    (hfree : st.sv.sessionsByUser.lookup userId = none)
    (e : sv'.sessionsByUser = (st.sv.register s userId).sessionsByUser) :
    Set.InjOn normalizeNickname {u | u ∈ sv'.sessionsByUser} ↔
      st.sv.isNicknameAvailable userId = true := by
  have hset : {u | u ∈ sv'.sessionsByUser} = insert userId {u | u ∈ st.sv.sessionsByUser} := by
    ext u
    rw [e, Server.register_eq hfree]
    exact AList.mem_insert _
  have hnot : userId ∉ {u | u ∈ st.sv.sessionsByUser} := AList.lookup_eq_none.1 hfree
  rw [hset, Set.injOn_insert hnot, isNicknameAvailable_iff]
  constructor
  · rintro ⟨-, himage⟩ u hu he
    exact himage ⟨u, hu, he⟩
  · intro havailable
    refine ⟨keysApart_iff.1 h, ?_⟩
    rintro ⟨u, hu, he⟩
    exact havailable u hu he

theorem keysApart_step_iff (codec : Codec) (crypto : Crypto) (m : LoginMove) (h : st.KeysApart) :
    (st.step codec crypto m).KeysApart ∧ st.ReplacesNobody m ↔ st.StillAvailable m := by
  rcases sessionsByUser_step codec crypto st m with ⟨s, userId, hact, hpoint, e⟩ | ⟨hnone, hsub⟩
  · constructor
    · rintro ⟨happart, hreplaces⟩ t v hact' hpoint'
      cases hact.symm.trans hact'
      cases hpoint.symm.trans hpoint'
      exact (keysApart_register_iff h (hreplaces s userId hact hpoint) e).1
        (keysApart_iff.1 happart)
    · intro havailable
      have hstill := havailable s userId hact hpoint
      have hfree := Server.lookup_of_isNicknameAvailable hstill
      refine ⟨keysApart_iff.2 ((keysApart_register_iff h hfree e).2 hstill), ?_⟩
      intro t v hact' hpoint'
      cases hact.symm.trans hact'
      cases hpoint.symm.trans hpoint'
      exact hfree
  · refine iff_of_true ⟨fun u hu v hv he => h u (hsub u hu) v (hsub v hv) he, ?_⟩ ?_
    · exact fun s userId hact hpoint => absurd hpoint (hnone s userId hact)
    · exact fun s userId hact hpoint => absurd hpoint (hnone s userId hact)

/-- Whatever the order of the steps, the registered names differ by more than case and no login
replaces a registered session, exactly if every name is still available when its session gets
registered. -/
theorem logins_apart_iff (codec : Codec) (crypto : Crypto) (config : Config) (db : Database)
    (ms : List LoginMove) :
    AllStates (step codec crypto) KeysApart (start (.start config db)) ms ∧
        AllSteps (step codec crypto) ReplacesNobody (start (.start config db)) ms ↔
      AllSteps (step codec crypto) StillAvailable (start (.start config db)) ms := by
  have hstart : (start (.start config db)).KeysApart := fun u hu =>
    absurd hu (AList.notMem_empty u)
  exact allStates_and_allSteps_iff hstart fun _ m h => keysApart_step_iff codec crypto m h

/-! ## Two logins at once -/

/-- Two clients have connected and are about to log in. -/
def bothConnected : Server :=
  final (Server.step .proto3 Server.capitalCrypto) (.start ⟨10, 10, 10, []⟩ .empty)
    ([Event.accept (str "127.0.0.1"), .accept (str "127.0.0.1"), .handshakeDone 0 true,
      .handshakeDone 1 true] ++
      frameEvents 0 .hello (Codec.proto3.hello.serialize ⟨1, []⟩) ++
      frameEvents 1 .hello (Codec.proto3.hello.serialize ⟨1, []⟩) |>.map Event.atZero)

/-- Both names are available; then both logins go on. -/
def bothLogins (userId userId' : Str) (signature signature' : Bytes) : List LoginMove :=
  [LoginAct.elsewhere bothConnected, .check 0 ⟨userId, zeroSeedKey, signature, [], [], []⟩,
    .check 1 ⟨userId', zeroSeedKey, signature', [], [], []⟩, .verify 0, .verify 1,
    .authenticate 0, .authenticate 1, .finish 0, .finish 1].map fun act =>
      ⟨(Event.acceptError.atZero).draws, act⟩

/-- `alice` and `Alice` are both registered; and of two sessions of `alice` the second replaces the
first. -/
theorem not_keysApart_bothLogins :
    ¬ AllStates (step .proto3 Server.capitalCrypto) KeysApart
        (start (.start ⟨10, 10, 10, []⟩ .empty))
        (bothLogins (str "alice") (str "Alice") Server.aliceSignature Server.capitalSignature) ∧
      ¬ AllSteps (step .proto3 Server.capitalCrypto) ReplacesNobody
        (start (.start ⟨10, 10, 10, []⟩ .empty))
        (bothLogins (str "alice") (str "alice") Server.aliceSignature Server.aliceSignature) := by
  constructor
  · intro hall
    have hmembers : str "alice" ∈ (final (step .proto3 Server.capitalCrypto)
          (start (.start ⟨10, 10, 10, []⟩ .empty)) (bothLogins (str "alice") (str "Alice")
            Server.aliceSignature Server.capitalSignature)).sv.sessionsByUser ∧
        str "Alice" ∈ (final (step .proto3 Server.capitalCrypto)
          (start (.start ⟨10, 10, 10, []⟩ .empty)) (bothLogins (str "alice") (str "Alice")
            Server.aliceSignature Server.capitalSignature)).sv.sessionsByUser := by decide +kernel
    exact absurd (hall.final _ hmembers.1 _ hmembers.2 (by decide)) (by decide)
  · intro hall
    have hpoint : (final (step .proto3 Server.capitalCrypto)
        (start (.start ⟨10, 10, 10, []⟩ .empty)) ((bothLogins (str "alice") (str "alice")
          Server.aliceSignature Server.aliceSignature).take 6)).points.lookup 1 =
        some (.established (str "alice")) := by decide +kernel
    exact absurd (hall.after 6 (by decide) 1 _ rfl hpoint) (by decide +kernel)

end Logins

end Ircord

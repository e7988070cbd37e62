import IrcordServer.Db.KeyTables
import IrcordServer.Net.Handlers
import IrcordServer.Tickets

/-!
# Key handlers that overlap

`handle_auth_response`, `handle_key_upload` and `handle_key_request` take the lock of the tables for
each operation of the user store, and the handlers of other sessions run in between.  Here a step
does at most one such operation.  A session whose handler is under way starts no other.
-/

open Container

namespace Ircord

/-- A session that was authenticated, with the identity key it presented. -/
structure KeySession where
  userId : Str
  identityPub : Bytes
  deriving DecidableEq

/-- What a handler does next. -/
inductive KeyPoint
  /-- `handle_auth_response`: `find_by_id`. -/
  | lookUp (auth : AuthResponse)
  | insert (auth : AuthResponse)
  /-- The key is not the one in the table: `has_password`. -/
  | mismatch (auth : AuthResponse)
  | verifyPassword (auth : AuthResponse)
  | clearKeyMaterial (auth : AuthResponse)
  | updateIdentityKey (auth : AuthResponse)
  /-- `upsert_signed_prekey`, for a user who was just inserted or whose key was just updated. -/
  | upsertSignedPrekey (auth : AuthResponse) (isNew : Bool)
  /-- The key is the one in the table: `has_password`. -/
  | backfill (auth : AuthResponse)
  | setPassword (auth : AuthResponse)
  /-- `handle_key_upload`: `upsert_signed_prekey`. -/
  | upload (who : KeySession) (ku : KeyUpload)
  | storeOpks (who : KeySession) (opks : List Bytes)
  /-- `handle_key_request`: `find_by_id`. -/
  | request (kr : KeyRequest)
  | getSignedPrekey (kr : KeyRequest) (target : User)
  | consumeOpk (kr : KeyRequest) (target : User) (spk : Option SignedPrekey)
  deriving DecidableEq

/-- The tables, with a record of what happened, the last first: what became of the rows of
`one_time_prekeys`, the signed pre-keys that were stored, and the bundles that were sent. -/
structure KeyLedger where
  db : Database
  opks : List (Tickets.Event OneTimePrekeyRow KeySession KeyBundle)
  spks : List (KeySession × SignedPrekey)
  sent : List KeyBundle

/-- The ledger and the handlers under way. -/
structure KeyStrands where
  ledger : KeyLedger
  sessions : UnorderedMap SessionId KeySession
  points : UnorderedMap SessionId KeyPoint

inductive KeyAct
  /-- An `AUTH_RESPONSE` that passes the checks before `find_by_id`. -/
  | authResponse (s : SessionId) (auth : AuthResponse)
  | keyUpload (s : SessionId) (ku : KeyUpload)
  | keyRequest (s : SessionId) (kr : KeyRequest)
  /-- The handler of the session goes on. -/
  | next (s : SessionId)
  /-- The process ends and is started again. -/
  | restart

structure KeyMove where
  draws : Draws
  act : KeyAct

/-- What a session that presents `auth` will be. -/
def AuthResponse.session (auth : AuthResponse) : KeySession := ⟨auth.userId, auth.identityPub⟩

/-- The signed pre-key of an `AUTH_RESPONSE`, if there is one. -/
def AuthResponse.spk? (auth : AuthResponse) : Option SignedPrekey :=
  if auth.signedPrekey.isEmpty || auth.spkSig.isEmpty then none
  else some ⟨auth.signedPrekey, auth.spkSig⟩

/-- The signed pre-key of a `KEY_UPLOAD`, if there is one. -/
def KeyUpload.spk? (ku : KeyUpload) : Option SignedPrekey :=
  if ku.signedPrekey.isEmpty || ku.spkSignature.isEmpty then none
  else some ⟨ku.signedPrekey, ku.spkSignature⟩

/-- The `KEY_BUNDLE` that `handle_key_request` builds. -/
def keyBundle (kr : KeyRequest) (target : User) (spk : Option SignedPrekey) (opk : Bytes) :
    KeyBundle where
  identityPub := target.identityPub
  signedPrekey := (spk.map (·.spkPub)).getD []
  spkSignature := (spk.map (·.spkSig)).getD []
  oneTimePrekey := opk
  recipientFor := kr.userId

/-! ## Operations on the ledger -/

namespace KeyLedger

variable (d : Draws) (l : KeyLedger)

/-- The tables have just been created. -/
def empty : KeyLedger := ⟨.empty, [], [], []⟩

def withDb (db : Database) : KeyLedger := { l with db := db }

/-- `upsert_signed_prekey`, if there is a signed pre-key; `none` if it throws. -/
def upsertSignedPrekey (who : KeySession) : Option SignedPrekey → Option KeyLedger
  | none => some l
  | some spk =>
    match UserStore.upsertSignedPrekey l.db who.userId spk.spkPub spk.spkSig d.nowUnix with
    | .error _ => none
    | .ok db => some { l with
        db := db
        spks := (who, spk) :: l.spks }

def clearKeyMaterial (userId : Str) : KeyLedger :=
  let db := UserStore.clearKeyMaterial l.db userId
  { l with
    db := db
    opks := .drop ((l.db.oneTimePrekeys.minus db.oneTimePrekeys).map (·.1)) :: l.opks }

/-- `store_opk`; `none` if it throws. -/
def storeOpk (who : KeySession) (opk : Bytes) : Option KeyLedger :=
  match UserStore.storeOpk l.db who.userId opk with
  | .error _ => none
  | .ok db => some { l with
      db := db
      opks := (db.oneTimePrekeys.minus l.db.oneTimePrekeys).map (fun r => .put who r.1 r.2) ++
        l.opks }

/-- `consume_opk`, and the bundle is built and sent. -/
def sendBundle (kr : KeyRequest) (target : User) (spk : Option SignedPrekey) : KeyLedger :=
  let (opk, db) := UserStore.consumeOpk l.db kr.userId
  let bundle := keyBundle kr target spk opk
  { l with
    db := db
    opks := (l.db.oneTimePrekeys.minus db.oneTimePrekeys).map (fun r => .take bundle r.1 r.2) ++
      l.opks
    sent := bundle :: l.sent }

end KeyLedger

/-! ## Steps -/

namespace KeyStrands

variable (crypto : Crypto) (d : Draws) (st : KeyStrands) (s : SessionId)

/-- A server that has just been installed. -/
def start : KeyStrands := ⟨.empty, ∅, ∅⟩

/-- No handler of the session is under way. -/
def Idle : Prop := st.points.lookup s = none

instance : Decidable (st.Idle s) := inferInstanceAs (Decidable (_ = _))

/-- The handler goes on at `p`, after an operation that left the ledger `l`. -/
def goto (l : KeyLedger) (p : KeyPoint) : KeyStrands :=
  { st with
    ledger := l
    points := st.points.insert s p }

/-- The handler returns, or what it threw is caught. -/
def finish (l : KeyLedger) : KeyStrands :=
  { st with
    ledger := l
    points := st.points.erase s }

/-- From `// --- Auth success ---`. -/
def accept (l : KeyLedger) (auth : AuthResponse) : KeyStrands :=
  { st.finish s l with sessions := st.sessions.insert s auth.session }

/-- The handler of the session goes on from `p`. -/
def nextFrom (p : KeyPoint) : KeyStrands :=
  let l := st.ledger
  match p with
  | .lookUp auth =>
    match UserStore.findById l.db auth.userId with
    | none => st.goto s l (.insert auth)
    | some existing =>
      if existing.identityPub ≠ auth.identityPub then st.goto s l (.mismatch auth)
      else st.goto s l (.backfill auth)
  | .insert auth =>
    match UserStore.insert l.db ⟨auth.userId, auth.identityPub, d.nowUnix⟩ with
    | .error _ => st.finish s l
    | .ok db => st.goto s (l.withDb db) (.upsertSignedPrekey auth true)
  | .mismatch auth =>
    if !auth.password.isEmpty && UserStore.hasPassword l.db auth.userId then
      st.goto s l (.verifyPassword auth)
    else st.finish s l
  | .verifyPassword auth =>
    if UserStore.verifyPassword l.db crypto auth.userId auth.password then
      st.goto s l (.clearKeyMaterial auth)
    else st.finish s l
  | .clearKeyMaterial auth =>
    st.goto s (l.clearKeyMaterial auth.userId) (.updateIdentityKey auth)
  | .updateIdentityKey auth =>
    match UserStore.updateIdentityKey l.db auth.userId auth.identityPub with
    | .error _ => st.finish s l
    | .ok db => st.goto s (l.withDb db) (.upsertSignedPrekey auth false)
  | .upsertSignedPrekey auth isNew =>
    match l.upsertSignedPrekey d auth.session auth.spk? with
    | none => st.finish s l
    | some l => if isNew then st.goto s l (.setPassword auth) else st.accept s l auth
  | .backfill auth =>
    if !auth.password.isEmpty && !UserStore.hasPassword l.db auth.userId then
      st.goto s l (.setPassword auth)
    else st.accept s l auth
  | .setPassword auth =>
    if auth.password.isEmpty then st.accept s l auth
    else st.accept s (l.withDb (UserStore.setPassword l.db auth.userId d.pwhash).2) auth
  | .upload who ku =>
    match l.upsertSignedPrekey d who ku.spk? with
    | none => st.finish s l
    | some l => st.goto s l (.storeOpks who ku.oneTimePrekeys)
  | .storeOpks _ [] => st.finish s l
  | .storeOpks who (opk :: opks) =>
    match l.storeOpk who opk with
    | none => st.finish s l
    | some l => st.goto s l (.storeOpks who opks)
  | .request kr =>
    match UserStore.findById l.db kr.userId with
    | none => st.finish s l
    | some target => st.goto s l (.getSignedPrekey kr target)
  | .getSignedPrekey kr target =>
    st.goto s l (.consumeOpk kr target (UserStore.getSignedPrekey l.db kr.userId))
  | .consumeOpk kr target spk => st.finish s (l.sendBundle kr target spk)

def next : KeyStrands :=
  match st.points.lookup s with
  | none => st
  | some p => st.nextFrom crypto d s p

def step (m : KeyMove) : KeyStrands :=
  match m.act with
  | .authResponse s auth =>
    if st.Idle s ∧ st.sessions.lookup s = none then st.goto s st.ledger (.lookUp auth) else st
  | .keyUpload s ku =>
    match st.sessions.lookup s with
    | none => st
    | some who => if st.Idle s then st.goto s st.ledger (.upload who ku) else st
  | .keyRequest s kr =>
    if st.Idle s ∧ (st.sessions.lookup s).isSome then st.goto s st.ledger (.request kr) else st
  | .next s => st.next crypto m.draws s
  | .restart => ⟨st.ledger, ∅, ∅⟩

/-! ## The steps make up the handlers -/

/-- The handler of the session goes on `n` times, and nothing comes in between. -/
def nexts : ℕ → KeyStrands → KeyStrands
  | 0, st => st
  | n + 1, st => nexts n (st.next crypto d s)

variable {crypto d st s} {l : KeyLedger} {p : KeyPoint}

theorem ledger_goto : (st.goto s l p).ledger = l := rfl

theorem nexts_goto (n : ℕ) :
    nexts crypto d s (n + 1) (st.goto s l p) =
      nexts crypto d s n ((st.goto s l p).nextFrom crypto d s p) := by
  rw [nexts, next, goto, AList.lookup_insert]

/-- A handler that has ended does nothing more. -/
theorem nexts_of_idle (h : st.Idle s) (n : ℕ) : nexts crypto d s n st = st := by
  induction n with
  | zero => rfl
  | succ n ih => rw [nexts, next, h, ih]

theorem idle_finish : (st.finish s l).Idle s := AList.lookup_erase _ _

theorem idle_accept (auth : AuthResponse) : (st.accept s l auth).Idle s := AList.lookup_erase _ _

/-- The three operations of a `KEY_REQUEST`, one right after the other, are
`handle_key_request`. -/
theorem handleKeyRequest_of_nexts {codec : Codec} {sv : Server} {kr : KeyRequest} {target : User}
    (hdb : sv.db = st.ledger.db) (hfound : UserStore.findById sv.db kr.userId = some target) :
    ∃ bundle, (nexts crypto d s 3 (st.goto s st.ledger (.request kr))).ledger.sent =
        bundle :: st.ledger.sent ∧
      sv.handleKeyRequest codec d s kr =
        { sv with
          db := (nexts crypto d s 3 (st.goto s st.ledger (.request kr))).ledger.db }.sendEnvelope
            d s .keyBundle (codec.keyBundle.serialize bundle) := by
  have hnexts : (nexts crypto d s 3 (st.goto s st.ledger (.request kr))).ledger =
      st.ledger.sendBundle kr target (UserStore.getSignedPrekey st.ledger.db kr.userId) := by
    rw [nexts_goto]
    have hrequest : (st.goto s st.ledger (.request kr)).nextFrom crypto d s (.request kr) =
        (st.goto s st.ledger (.request kr)).goto s st.ledger (.getSignedPrekey kr target) := by
      unfold nextFrom
      dsimp only [ledger_goto]
      rw [← hdb, hfound]
    rw [hrequest, nexts_goto]
    unfold nextFrom
    dsimp only
    rw [nexts_goto]
    rfl
  rw [hnexts]
  refine ⟨_, rfl, ?_⟩
  unfold Server.handleKeyRequest
  rw [hfound]
  dsimp only
  rw [hdb]
  rfl

theorem storeOpks_of_nexts (who : KeySession) (opks : List Bytes) (st : KeyStrands)
    (l : KeyLedger) :
    (nexts crypto d s (opks.length + 1) (st.goto s l (.storeOpks who opks))).ledger.db =
      Server.storeOpks who.userId l.db opks := by
  induction opks generalizing st l with
  | nil => rw [nexts_goto]; rfl
  | cons opk opks ih =>
    rw [nexts_goto]
    unfold nextFrom Server.storeOpks KeyLedger.storeOpk
    dsimp only [ledger_goto]
    cases hstore : UserStore.storeOpk l.db who.userId opk with
    | error e =>
      dsimp only
      rw [nexts_of_idle idle_finish]
      rfl
    | ok db => exact ih _ _

/-- The operations of a `KEY_UPLOAD`, one right after the other, are `handle_key_upload`. -/
theorem handleKeyUpload_of_nexts {sv : Server} {x : Session} {who : KeySession} {ku : KeyUpload}
    (hdb : sv.db = st.ledger.db) (hwho : who.userId = x.userId) :
    sv.handleKeyUpload d x ku =
      { sv with
        db := (nexts crypto d s (ku.oneTimePrekeys.length + 2)
          (st.goto s st.ledger (.upload who ku))).ledger.db } := by
  rw [nexts_goto]
  unfold nextFrom Server.handleKeyUpload KeyUpload.spk?
  dsimp only [ledger_goto]
  rw [← hwho, hdb]
  by_cases hempty : (ku.signedPrekey.isEmpty || ku.spkSignature.isEmpty) = true
  · rw [if_pos hempty, if_pos hempty]
    dsimp only [KeyLedger.upsertSignedPrekey]
    rw [storeOpks_of_nexts]
  · rw [if_neg hempty, if_neg hempty]
    dsimp only [KeyLedger.upsertSignedPrekey]
    cases hupsert : UserStore.upsertSignedPrekey st.ledger.db who.userId ku.signedPrekey
        ku.spkSignature d.nowUnix with
    | error e =>
      dsimp only
      rw [nexts_of_idle idle_finish]
      show sv = { sv with db := st.ledger.db }
      rw [← hdb]
    | ok db =>
      dsimp only
      rw [storeOpks_of_nexts]

theorem upsertSignedPrekey_auth (auth : AuthResponse) :
    (l.upsertSignedPrekey d auth.session auth.spk?).map (·.db) =
      (storeSignedPrekey d l.db auth).toOption := by
  unfold storeSignedPrekey AuthResponse.spk?
  split_ifs
  · rfl
  · dsimp only [KeyLedger.upsertSignedPrekey, AuthResponse.session]
    cases UserStore.upsertSignedPrekey l.db auth.userId auth.signedPrekey auth.spkSig d.nowUnix <;>
      rfl

/-- How `handle_auth_response` with this verdict left the tables and the sessions. -/
def Ended (st st' : KeyStrands) (s : SessionId) (auth : AuthResponse) : AuthVerdict → Prop
  | .accept db => st'.ledger.db = db ∧ st'.sessions = st.sessions.insert s auth.session
  | .threw db => st'.ledger.db = db ∧ st'.sessions = st.sessions
  | .fail _ _ => st'.ledger.db = st.ledger.db ∧ st'.sessions = st.sessions
  | .insertFailed => st'.ledger.db = st.ledger.db ∧ st'.sessions = st.sessions

theorem ended_of_error {st₀ : KeyStrands} {auth : AuthResponse} {e : SqlError} (isNew : Bool)
    (n : ℕ) (hsessions : st.sessions = st₀.sessions)
    (hstore : storeSignedPrekey d l.db auth = .error e) :
    Ended st₀ (nexts crypto d s (n + 1) (st.goto s l (.upsertSignedPrekey auth isNew))) s auth
      (.threw l.db) := by
  have hnone := @upsertSignedPrekey_auth d l auth
  rw [hstore, Except.toOption, Option.map_eq_none_iff] at hnone
  rw [nexts_goto]
  unfold nextFrom
  dsimp only [ledger_goto]
  rw [hnone]
  dsimp only
  rw [nexts_of_idle idle_finish]
  exact ⟨rfl, hsessions⟩

theorem ended_of_ok {st₀ : KeyStrands} {auth : AuthResponse} {db : Database}
    {verdict : AuthVerdict} (isNew : Bool) (n : ℕ) (hsessions : st.sessions = st₀.sessions)
    (hstore : storeSignedPrekey d l.db auth = .ok db)
    (hverdict : verdict =
      if isNew = false ∨ auth.password.isEmpty = true then .accept db
      else .accept (UserStore.setPassword db auth.userId d.pwhash).2) :
    Ended st₀ (nexts crypto d s (n + 2) (st.goto s l (.upsertSignedPrekey auth isNew))) s auth
      verdict := by
  have hsome := @upsertSignedPrekey_auth d l auth
  rw [hstore, Except.toOption, Option.map_eq_some_iff] at hsome
  obtain ⟨l', hupsert, rfl⟩ := hsome
  have haccept : st.sessions.insert s auth.session = st₀.sessions.insert s auth.session := by
    rw [hsessions]
  rw [nexts_goto, hverdict]
  unfold nextFrom
  dsimp only [ledger_goto]
  rw [hupsert]
  dsimp only
  cases isNew with
  | false =>
    rw [if_neg Bool.false_ne_true, if_pos (Or.inl rfl), nexts_of_idle (idle_accept auth)]
    exact ⟨rfl, haccept⟩
  | true =>
    rw [if_pos rfl, nexts_goto]
    unfold nextFrom
    dsimp only [ledger_goto]
    by_cases hpassword : auth.password.isEmpty = true
    · rw [if_pos hpassword, if_pos (Or.inr hpassword), nexts_of_idle (idle_accept auth)]
      exact ⟨rfl, haccept⟩
    · rw [if_neg hpassword, if_neg (by simp [hpassword]), nexts_of_idle (idle_accept auth)]
      exact ⟨rfl, haccept⟩

theorem ended_recovery {st₀ : KeyStrands} {auth : AuthResponse}
    (hsessions : st.sessions = st₀.sessions) (hdb : l.db = st₀.ledger.db) :
    Ended st₀ (nexts crypto d s 6 (st.goto s l (.mismatch auth))) s auth
      (recoverIdentityKey crypto d l.db auth) := by
  rw [nexts_goto]
  unfold nextFrom recoverIdentityKey
  dsimp only [ledger_goto]
  split_ifs with hpassword hverify
  · rw [nexts_goto]
    unfold nextFrom
    dsimp only [ledger_goto]
    rw [if_pos hverify, nexts_goto]
    unfold nextFrom
    dsimp only [ledger_goto]
    rw [nexts_goto]
    unfold nextFrom
    dsimp only [ledger_goto, KeyLedger.clearKeyMaterial]
    cases hupdate : UserStore.updateIdentityKey (UserStore.clearKeyMaterial l.db auth.userId)
        auth.userId auth.identityPub with
    | error e =>
      dsimp only
      rw [nexts_of_idle idle_finish]
      exact ⟨rfl, hsessions⟩
    | ok db =>
      dsimp only
      cases hstore : storeSignedPrekey d db auth with
      | error e => exact ended_of_error false 1 hsessions hstore
      | ok db' => exact ended_of_ok false 0 hsessions hstore (if_pos (Or.inl rfl)).symm
  · rw [nexts_goto]
    unfold nextFrom
    dsimp only [ledger_goto]
    rw [if_neg hverify, nexts_of_idle idle_finish]
    exact ⟨hdb, hsessions⟩
  · rw [nexts_of_idle idle_finish]
    exact ⟨hdb, hsessions⟩

/-- The operations of an `AUTH_RESPONSE`, one right after the other, are the verdict of
`handle_auth_response`. -/
theorem registerOrVerify_of_nexts (auth : AuthResponse) :
    Ended st (nexts crypto d s 7 (st.goto s st.ledger (.lookUp auth))) s auth
      (registerOrVerify crypto d st.ledger.db auth) := by
  rw [nexts_goto]
  unfold nextFrom registerOrVerify
  dsimp only [ledger_goto]
  cases hfound : UserStore.findById st.ledger.db auth.userId with
  | none =>
    dsimp only
    rw [nexts_goto]
    unfold nextFrom registerUser
    dsimp only [ledger_goto]
    cases hinsert : UserStore.insert st.ledger.db ⟨auth.userId, auth.identityPub, d.nowUnix⟩ with
    | error e =>
      dsimp only
      rw [nexts_of_idle idle_finish]
      exact ⟨rfl, rfl⟩
    | ok db =>
      dsimp only
      cases hstore : storeSignedPrekey d db auth with
      | error e => exact ended_of_error true 4 rfl hstore
      | ok db' => exact ended_of_ok true 3 rfl hstore (by simp)
  | some existing =>
    dsimp only
    split_ifs with hdiffers hbackfill
    · refine ended_recovery ?_ ?_
      · rfl
      · rfl
    · rw [nexts_goto]
      unfold nextFrom
      dsimp only [ledger_goto]
      rw [if_pos hbackfill, nexts_goto]
      unfold nextFrom
      dsimp only [ledger_goto]
      have hpassword : ¬ auth.password.isEmpty = true := by
        simp only [Bool.and_eq_true, Bool.not_eq_true'] at hbackfill
        exact Bool.eq_false_iff.1 hbackfill.1
      rw [if_neg hpassword, nexts_of_idle (idle_accept auth)]
      exact ⟨rfl, rfl⟩
    · rw [nexts_goto]
      unfold nextFrom
      dsimp only [ledger_goto]
      rw [if_neg hbackfill, nexts_of_idle (idle_accept auth)]
      exact ⟨rfl, rfl⟩

/-! ## What a step writes -/

/-- The operations that write to the ledger, with the point they stand at. -/
inductive Writes (d : Draws) (l : KeyLedger) : KeyPoint → KeyLedger → Prop
  | insert {auth : AuthResponse} {db : Database}
      (h : UserStore.insert l.db ⟨auth.userId, auth.identityPub, d.nowUnix⟩ = .ok db) :
      Writes d l (.insert auth) (l.withDb db)
  | clear {auth : AuthResponse} :
      Writes d l (.clearKeyMaterial auth) (l.clearKeyMaterial auth.userId)
  | update {auth : AuthResponse} {db : Database}
      (h : UserStore.updateIdentityKey l.db auth.userId auth.identityPub = .ok db) :
      Writes d l (.updateIdentityKey auth) (l.withDb db)
  | upsert {auth : AuthResponse} {isNew : Bool} {l' : KeyLedger}
      (h : l.upsertSignedPrekey d auth.session auth.spk? = some l') :
      Writes d l (.upsertSignedPrekey auth isNew) l'
  | password {auth : AuthResponse} :
      Writes d l (.setPassword auth)
        (l.withDb (UserStore.setPassword l.db auth.userId d.pwhash).2)
  | upload {who : KeySession} {ku : KeyUpload} {l' : KeyLedger}
      (h : l.upsertSignedPrekey d who ku.spk? = some l') : Writes d l (.upload who ku) l'
  | store {who : KeySession} {opk : Bytes} {opks : List Bytes} {l' : KeyLedger}
      (h : l.storeOpk who opk = some l') : Writes d l (.storeOpks who (opk :: opks)) l'
  | bundle {kr : KeyRequest} {target : User} {spk : Option SignedPrekey} :
      Writes d l (.consumeOpk kr target spk) (l.sendBundle kr target spk)

theorem ledger_nextFrom (p : KeyPoint) :
    (st.nextFrom crypto d s p).ledger = st.ledger ∨
      Writes d st.ledger p (st.nextFrom crypto d s p).ledger := by
  unfold nextFrom
  cases p with
  | lookUp auth =>
    left
    dsimp only
    split
    · rfl
    · split_ifs <;> rfl
  | insert auth =>
    dsimp only
    split
    · exact Or.inl rfl
    · rename_i db h
      exact Or.inr (.insert h)
  | mismatch auth =>
    left
    dsimp only
    split_ifs <;> rfl
  | verifyPassword auth =>
    left
    dsimp only
    split_ifs <;> rfl
  | clearKeyMaterial auth => exact Or.inr .clear
  | updateIdentityKey auth =>
    dsimp only
    split
    · exact Or.inl rfl
    · rename_i db h
      exact Or.inr (.update h)
  | upsertSignedPrekey auth isNew =>
    dsimp only
    split
    · exact Or.inl rfl
    · rename_i l' h
      right
      cases isNew <;> exact .upsert h
  | backfill auth =>
    left
    dsimp only
    split_ifs <;> rfl
  | setPassword auth =>
    dsimp only
    split_ifs
    · exact Or.inl rfl
    · exact Or.inr .password
  | upload who ku =>
    dsimp only
    split
    · exact Or.inl rfl
    · rename_i l' h
      exact Or.inr (.upload h)
  | storeOpks who opks =>
    cases opks with
    | nil => exact Or.inl rfl
    | cons opk opks =>
      dsimp only
      split
      · exact Or.inl rfl
      · rename_i l' h
        exact Or.inr (.store h)
  | request kr =>
    left
    dsimp only
    split <;> rfl
  | getSignedPrekey kr target => exact Or.inl rfl
  | consumeOpk kr target spk => exact Or.inr .bundle

/-- A step leaves the ledger alone, or the handler of a session goes on with an operation that
writes. -/
theorem ledger_step (m : KeyMove) :
    (st.step crypto m).ledger = st.ledger ∨
      ∃ s p, m.act = .next s ∧ st.points.lookup s = some p ∧
        Writes m.draws st.ledger p (st.step crypto m).ledger := by
  obtain ⟨d, act⟩ := m
  unfold step
  cases act with
  | authResponse s auth =>
    left
    dsimp only
    split_ifs <;> rfl
  | keyUpload s ku =>
    left
    dsimp only
    split
    · rfl
    · split_ifs <;> rfl
  | keyRequest s kr =>
    left
    dsimp only
    split_ifs <;> rfl
  | next s =>
    dsimp only [next]
    cases hpoint : st.points.lookup s with
    | none => exact Or.inl rfl
    | some p =>
      refine (ledger_nextFrom p).imp id fun hwrites => ⟨s, p, rfl, hpoint, hwrites⟩
  | restart => exact Or.inl rfl

end KeyStrands

end Ircord

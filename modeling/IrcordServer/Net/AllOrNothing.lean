import IrcordServer.Db.KeyTables
import IrcordServer.Net.NicknameCases
import IrcordServer.Net.Traffic

/-!
# Requests that fail

What a request has changed when it is refused.  An `AUTH_RESPONSE` is refused before the first
statement that writes, and the statements behind the last check cannot fail.  A `KEY_UPLOAD` writes
one key after the other, and what was written before a statement that throws stays.
-/

open Container Run Sql

namespace Ircord

namespace Server

variable {codec : Codec} {crypto : Crypto} {d : Draws} {sv : Server} {s : SessionId} {x : Session}

/-! ## `AUTH_RESPONSE` -/

/-- The tables and the registry are the same. -/
structure SameRecords (sv sv' : Server) : Prop where
  db : sv'.db = sv.db
  sessionsByUser : sv'.sessionsByUser = sv.sessionsByUser
  usersBySession : sv'.usersBySession = sv.usersBySession

theorem SameRecords.of_quiet {clears : Prop} {sv' : Server} (hquiet : Quiet clears (some s) sv sv')
    (hdb : sv'.db = sv.db) : SameRecords sv sv' :=
  ⟨hdb, hquiet.sessionsByUser, hquiet.usersBySession⟩

/-- The checks before the tables are asked write nothing. -/
theorem db_of_refused {auth : AuthResponse} (h : ¬ Presents crypto sv x.authNonce auth) :
    (sv.handleAuthResponse codec crypto d s x auth).db = sv.db := by
  unfold handleAuthResponse
  split_ifs with huser hfree hkey hsignature hverified
  · exact speaks_db.sendError_disconnect sv s _ _
  · exact speaks_db.authFail sv s _ _
  · exact speaks_db.sendError_disconnect sv s _ _
  · exact speaks_db.sendError_disconnect sv s _ _
  · exact speaks_db.authFail sv s _ _
  · refine absurd ⟨?_, ?_, not_ne_iff.1 hkey, not_ne_iff.1 hsignature, ?_⟩ h
    · simpa using huser
    · simpa using hfree
    · simpa using hverified

/-- The session is established at the end of a successful login. -/
theorem state_establish {userId : Str} (hfree : sv.sessionsByUser.lookup userId = none)
    (hs : s < sv.sessions.length) :
    ∃ x', (establish codec d sv s userId).sessions[s]? = some x' ∧ x'.state = .established := by
  have hcore := (@establish_enters codec d sv s userId hfree).core s
  rw [if_pos rfl, core_of_sessions (List.getElem?_eq_getElem hs)] at hcore
  obtain ⟨x', hx', e⟩ := core_eq_some.1 hcore
  exact ⟨x', hx', congrArg SessionCore.state e⟩

/-- An `AUTH_RESPONSE` after which the session is not established has changed neither the tables nor
the registry. -/
theorem failed_auth_changes_nothing (auth : AuthResponse) (hs : s < sv.sessions.length)
    (hfailed : ∀ x', (sv.handleAuthResponse codec crypto d s x auth).sessions[s]? = some x' →
      x'.state ≠ .established) :
    SameRecords sv (sv.handleAuthResponse codec crypto d s x auth) := by
  by_cases hpresents : Presents crypto sv x.authNonce auth
  · rw [handleAuthResponse_presented hpresents] at hfailed ⊢
    rcases @registerOrVerify_cases crypto d sv.db auth hpresents.key_ne_nil with
      ⟨code, message, e⟩ | ⟨db, e, -⟩
    · rw [e]
      have hquiet : Quiet False (some s) sv (sv.authFail codec d s code (str message)) :=
        quiet_authFail code (str message)
      exact .of_quiet hquiet (speaks_db.authFail sv s _ _)
    · rw [e] at hfailed
      have hfree := lookup_of_isNicknameAvailable hpresents.available
      obtain ⟨x', hx', hstate⟩ :=
        @state_establish codec d { sv with db := db } s auth.userId hfree hs
      exact absurd hstate (hfailed x' hx')
  · exact .of_quiet (handleAuthResponse_refused hpresents) (db_of_refused hpresents)

/-- A client that has been sent its challenge. -/
def challengedServer : Server :=
  final (step .proto3 capitalCrypto) (start ⟨10, 10, 10, []⟩ .empty)
    ((loginEvents 0 (str "alice") aliceSignature).take 4 |>.map Event.atZero)

/-- The signature of `alice` does not do for `bob`. -/
theorem failed_auth_changes_nothing_bob :
    SameRecords challengedServer (challengedServer.handleAuthResponse .proto3 capitalCrypto
      Event.acceptError.atZero.draws 0 (challengedServer.sessions[0]?.getD .new)
      ⟨str "bob", zeroSeedKey, aliceSignature, [], [], []⟩) :=
  failed_auth_changes_nothing _ (by decide +kernel) fun x' hx' hstate => by
    have hnot : ¬ ((challengedServer.handleAuthResponse .proto3 capitalCrypto
        Event.acceptError.atZero.draws 0 (challengedServer.sessions[0]?.getD .new)
        ⟨str "bob", zeroSeedKey, aliceSignature, [], [], []⟩).sessions[0]?.any
          fun x => x.state == .established) = true := by decide +kernel
    exact hnot ((Option.any_eq_true _ _).2 ⟨x', hx', beq_iff_eq.2 hstate⟩)

/-! ## `KEY_UPLOAD` -/

/-- The message carries a signed pre-key. -/
def HasSignedPrekey (ku : KeyUpload) : Prop := ku.signedPrekey ≠ [] ∧ ku.spkSignature ≠ []

instance (ku : KeyUpload) : Decidable (HasSignedPrekey ku) :=
  inferInstanceAs (Decidable (_ ∧ _))

/-- The one-time pre-keys in the rows that `store_opk` makes of them. -/
def withOpks (userId : Str) (opks : List Bytes) (t : Table OneTimePrekeyRow) :
    Table OneTimePrekeyRow :=
  opks.foldl (fun t opk => t.insert ⟨userId, opk, false⟩) t

/-- All keys of the message are in the tables, and nothing else has changed. -/
structure StoresKeys (d : Draws) (userId : Str) (ku : KeyUpload) (db db' : Database) : Prop where
  signedPrekeys : ∀ u, db'.signedPrekeys.lookup u =
    if u = userId ∧ HasSignedPrekey ku then some ⟨ku.signedPrekey, ku.spkSignature, d.nowUnix⟩
    else db.signedPrekeys.lookup u
  oneTimePrekeys : db'.oneTimePrekeys = withOpks userId ku.oneTimePrekeys db.oneTimePrekeys

/-- No key has changed. -/
structure KeepsKeys (db db' : Database) : Prop where
  signedPrekeys : ∀ u, db'.signedPrekeys.lookup u = db.signedPrekeys.lookup u
  oneTimePrekeys : db'.oneTimePrekeys = db.oneTimePrekeys

/-- The signed pre-key of the message is no new row. -/
def SignedPrekeyInPlace (d : Draws) (userId : Str) (ku : KeyUpload) (db : Database) : Prop :=
  HasSignedPrekey ku →
    db.signedPrekeys.lookup userId = some ⟨ku.signedPrekey, ku.spkSignature, d.nowUnix⟩

/-- No statement throws, or the first that would change something throws. -/
def UploadAtomic (d : Draws) (userId : Str) (ku : KeyUpload) (db : Database) : Prop :=
  userId ∉ db.users ∨ [] ∉ ku.oneTimePrekeys ∨
    ku.oneTimePrekeys.head? = some [] ∧ SignedPrekeyInPlace d userId ku db

section Statements

variable {userId : Str} {db db' : Database} {ku : KeyUpload}

theorem storeOpk_ok {opk : Bytes} (hexists : userId ∈ db.users) (hopk : opk ≠ []) :
    ∃ db', UserStore.storeOpk db userId opk = .ok db' := by
  unfold UserStore.storeOpk Database.insertOneTimePrekey
  rw [bindBlob_of_ne_nil hopk]
  dsimp only
  rw [dif_pos hexists]
  exact ⟨_, rfl⟩

theorem storeOpk_error {opk : Bytes} (h : userId ∉ db.users ∨ opk = []) :
    ∃ e, UserStore.storeOpk db userId opk = .error e := by
  cases hstore : UserStore.storeOpk db userId opk with
  | error e => exact ⟨e, rfl⟩
  | ok db' =>
    obtain ⟨hne, -⟩ := UserStore.of_storeOpk hstore
    rcases h with habsent | hnil
    · unfold UserStore.storeOpk Database.insertOneTimePrekey at hstore
      rw [bindBlob_of_ne_nil hne] at hstore
      dsimp only at hstore
      rw [dif_neg habsent] at hstore
      cases hstore
    · exact absurd hnil hne

/-- The loop stores the keys in front of the first empty one. -/
theorem storeOpks_eq (hexists : userId ∈ db.users) (opks : List Bytes) :
    (storeOpks userId db opks).signedPrekeys = db.signedPrekeys ∧
      (storeOpks userId db opks).oneTimePrekeys =
        withOpks userId (opks.takeWhile (· ≠ [])) db.oneTimePrekeys := by
  induction opks generalizing db with
  | nil => exact ⟨rfl, rfl⟩
  | cons opk opks ih =>
    unfold storeOpks
    by_cases hopk : opk = []
    · obtain ⟨e, he⟩ := @storeOpk_error userId db opk (Or.inr hopk)
      rw [he, List.takeWhile_cons_of_neg (by simp [hopk])]
      exact ⟨rfl, rfl⟩
    · obtain ⟨db', hdb'⟩ := storeOpk_ok hexists hopk
      obtain ⟨-, husers, hsigned, honeTime⟩ := UserStore.of_storeOpk hdb'
      rw [hdb', List.takeWhile_cons_of_pos (by simp [hopk])]
      obtain ⟨hsigned', honeTime'⟩ := @ih db' (by rw [husers]; exact hexists)
      refine ⟨hsigned'.trans hsigned, ?_⟩
      rw [honeTime', honeTime]
      rfl

theorem storeOpks_of_absent (habsent : userId ∉ db.users) (opks : List Bytes) :
    storeOpks userId db opks = db := by
  cases opks with
  | nil => rfl
  | cons opk opks =>
    obtain ⟨e, he⟩ := @storeOpk_error userId db opk (Or.inl habsent)
    unfold storeOpks
    rw [he]

theorem length_withOpks (opks : List Bytes) (t : Table OneTimePrekeyRow) :
    (withOpks userId opks t).rows.length = t.rows.length + opks.length := by
  induction opks generalizing t with
  | nil => rfl
  | cons opk opks ih =>
    have hinsert : (t.insert ⟨userId, opk, false⟩).rows.length = t.rows.length + 1 :=
      List.length_append
    refine (ih _).trans ?_
    rw [hinsert, List.length_cons]
    omega

/-- As many keys, as many rows. -/
theorem length_eq_of_withOpks {opks opks' : List Bytes} {t : Table OneTimePrekeyRow}
    (h : withOpks userId opks t = withOpks userId opks' t) : opks.length = opks'.length := by
  have hlength := congrArg (fun t => t.rows.length) h
  simp only [length_withOpks] at hlength
  omega

end Statements

section Upload

variable {ku : KeyUpload}

/-! The keys in front of the first empty one. -/

theorem takeWhile_eq_self {opks : List Bytes} (h : [] ∉ opks) : opks.takeWhile (· ≠ []) = opks := by
  induction opks with
  | nil => rfl
  | cons opk opks ih =>
    rw [List.mem_cons, not_or] at h
    rw [List.takeWhile_cons_of_pos (by simpa using Ne.symm h.1), ih h.2]

theorem takeWhile_length_ne {opks : List Bytes} (h : [] ∈ opks) :
    (opks.takeWhile (· ≠ [])).length ≠ opks.length := by
  intro hlength
  have heq : opks.takeWhile (· ≠ []) = opks :=
    (List.takeWhile_prefix (· ≠ [])).eq_of_length hlength
  have hall := @List.all_takeWhile Bytes (· ≠ []) opks
  rw [heq, List.all_eq_true] at hall
  simpa using hall [] h

theorem takeWhile_eq_nil_iff {opks : List Bytes} (h : [] ∈ opks) :
    opks.takeWhile (· ≠ []) = [] ↔ opks.head? = some [] := by
  cases opks with
  | nil => exact absurd h List.not_mem_nil
  | cons opk opks =>
    by_cases hopk : opk = []
    · rw [List.takeWhile_cons_of_neg (by simp [hopk]), List.head?_cons, hopk]
      simp
    · rw [List.takeWhile_cons_of_pos (by simp [hopk]), List.head?_cons]
      simp [hopk]

theorem signedPrekeyInPlace_iff {userId : Str} {db : Database} :
    (∀ u, (if u = userId ∧ HasSignedPrekey ku then
        some ⟨ku.signedPrekey, ku.spkSignature, d.nowUnix⟩
      else db.signedPrekeys.lookup u) = db.signedPrekeys.lookup u) ↔
      SignedPrekeyInPlace d userId ku db := by
  constructor
  · intro h hspk
    rw [← h userId, if_pos ⟨rfl, hspk⟩]
  · intro h u
    split_ifs with hu
    · rw [hu.1, h hu.2]
    · rfl

theorem isEmpty_or_isEmpty_iff :
    (ku.signedPrekey.isEmpty || ku.spkSignature.isEmpty) = true ↔ ¬ HasSignedPrekey ku := by
  unfold HasSignedPrekey
  rw [Bool.or_eq_true, List.isEmpty_iff, List.isEmpty_iff]
  tauto

/-- The tables after `handle_key_upload`, for a user that is there. -/
theorem handleKeyUpload_eq (hexists : x.userId ∈ sv.db.users) :
    (∀ u, (sv.handleKeyUpload d x ku).db.signedPrekeys.lookup u =
      if u = x.userId ∧ HasSignedPrekey ku then
        some ⟨ku.signedPrekey, ku.spkSignature, d.nowUnix⟩
      else sv.db.signedPrekeys.lookup u) ∧
    (sv.handleKeyUpload d x ku).db.oneTimePrekeys =
      withOpks x.userId (ku.oneTimePrekeys.takeWhile (· ≠ [])) sv.db.oneTimePrekeys := by
  unfold handleKeyUpload
  by_cases hspk : HasSignedPrekey ku
  · obtain ⟨db, hdb, husers⟩ :=
      @UserStore.upsertSignedPrekey_ok sv.db x.userId _ _ d.nowUnix hspk.1 hspk.2 hexists
    obtain ⟨-, honeTime, hsigned⟩ := UserStore.of_upsertSignedPrekey hdb
    rw [if_neg (mt isEmpty_or_isEmpty_iff.1 (not_not_intro hspk)), hdb]
    obtain ⟨hsigned', honeTime'⟩ :=
      @storeOpks_eq x.userId db (by rw [husers]; exact hexists) ku.oneTimePrekeys
    refine ⟨fun u => ?_, honeTime'.trans (by rw [honeTime])⟩
    have hlookup : (storeOpks x.userId db ku.oneTimePrekeys).signedPrekeys.lookup u = _ :=
      congrArg (AList.lookup u) (hsigned'.trans hsigned)
    refine hlookup.trans ((UnorderedMap.lookup_insert_ite _ _ _ _).trans ?_)
    simp only [hspk, and_true]
  · rw [if_pos (isEmpty_or_isEmpty_iff.2 hspk)]
    obtain ⟨hsigned, honeTime⟩ := storeOpks_eq hexists ku.oneTimePrekeys
    refine ⟨fun u => ?_, honeTime⟩
    rw [if_neg fun h => hspk h.2]
    exact congrArg (AList.lookup u) hsigned

theorem handleKeyUpload_of_absent (habsent : x.userId ∉ sv.db.users) :
    (sv.handleKeyUpload d x ku).db = sv.db := by
  unfold handleKeyUpload
  by_cases hspk : HasSignedPrekey ku
  · rw [if_neg (mt isEmpty_or_isEmpty_iff.1 (not_not_intro hspk))]
    cases hsigned : UserStore.upsertSignedPrekey sv.db x.userId ku.signedPrekey ku.spkSignature
        d.nowUnix with
    | error e => rfl
    | ok db =>
      unfold UserStore.upsertSignedPrekey Database.replaceSignedPrekey at hsigned
      rw [bindBlob_of_ne_nil hspk.1, bindBlob_of_ne_nil hspk.2] at hsigned
      dsimp only at hsigned
      rw [dif_neg habsent] at hsigned
      cases hsigned
  · rw [if_pos (isEmpty_or_isEmpty_iff.2 hspk)]
    exact storeOpks_of_absent habsent _

/-- A `KEY_UPLOAD` stores all of its keys or none exactly if no one-time pre-key is empty, or the
first is and the signed pre-key changes nothing, or the user has no row. -/
theorem key_upload_atomic_iff (d : Draws) (sv : Server) (x : Session) (ku : KeyUpload) :
    StoresKeys d x.userId ku sv.db (sv.handleKeyUpload d x ku).db ∨
        KeepsKeys sv.db (sv.handleKeyUpload d x ku).db ↔
      UploadAtomic d x.userId ku sv.db := by
  by_cases hexists : x.userId ∈ sv.db.users
  · obtain ⟨hsigned, honeTime⟩ := @handleKeyUpload_eq d sv x ku hexists
    by_cases hempty : [] ∈ ku.oneTimePrekeys
    · have hstops : ¬ StoresKeys d x.userId ku sv.db (sv.handleKeyUpload d x ku).db := fun h =>
        takeWhile_length_ne hempty (length_eq_of_withOpks (honeTime.symm.trans h.oneTimePrekeys))
      have hatomic : UploadAtomic d x.userId ku sv.db ↔
          ku.oneTimePrekeys.head? = some [] ∧ SignedPrekeyInPlace d x.userId ku sv.db := by
        unfold UploadAtomic
        simp only [hexists, hempty, not_true_eq_false, false_or]
      rw [or_iff_right hstops, hatomic, ← takeWhile_eq_nil_iff hempty,
        ← signedPrekeyInPlace_iff]
      constructor
      · intro h
        have hzero : _ = ([] : List Bytes).length :=
          length_eq_of_withOpks (honeTime.symm.trans h.oneTimePrekeys)
        exact ⟨List.length_eq_zero_iff.1 hzero,
          fun u => (hsigned u).symm.trans (h.signedPrekeys u)⟩
      · rintro ⟨hnone, hplace⟩
        refine ⟨fun u => (hsigned u).trans (hplace u), ?_⟩
        rw [honeTime, hnone]
        rfl
    · rw [takeWhile_eq_self hempty] at honeTime
      exact iff_of_true (Or.inl ⟨hsigned, honeTime⟩) (Or.inr (Or.inl hempty))
  · rw [handleKeyUpload_of_absent hexists]
    exact iff_of_true (Or.inr ⟨fun _ => rfl, rfl⟩) (Or.inl hexists)

end Upload

/-- The server when `alice` has logged in. -/
def aliceServer : Server :=
  final (step .proto3 capitalCrypto) (start ⟨10, 10, 10, []⟩ .empty)
    ((loginEvents 0 (str "alice") aliceSignature).map Event.atZero)

/-- `alice` uploads a signed pre-key and two one-time pre-keys, of which the second is empty. -/
def halfUpload : List Input :=
  (frameEvents 0 .keyUpload (Codec.proto3.keyUpload.serialize ⟨[1], [2], [[3], []]⟩)).map
    Event.atZero

/-- The first one-time pre-key is stored, the second is not. -/
theorem not_keys_halfUpload :
    ¬ (StoresKeys Event.acceptError.atZero.draws (str "alice") ⟨[1], [2], [[3], []]⟩ aliceServer.db
        (final (step .proto3 capitalCrypto) aliceServer halfUpload).db ∨
      KeepsKeys aliceServer.db (final (step .proto3 capitalCrypto) aliceServer halfUpload).db) := by
  have hbefore : aliceServer.db.oneTimePrekeys.rows.length = 0 := by decide +kernel
  have hafter : (final (step .proto3 capitalCrypto) aliceServer
      halfUpload).db.oneTimePrekeys.rows.length = 1 := by decide +kernel
  rintro (hstores | hkeeps)
  · rw [hstores.oneTimePrekeys, length_withOpks, hbefore] at hafter
    exact absurd hafter (by decide)
  · rw [hkeeps.oneTimePrekeys, hbefore] at hafter
    exact absurd hafter (by decide)

end Server

end Ircord

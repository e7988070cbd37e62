import IrcordServer.Net.Authenticity

/-!
# Who gets registered

`handle_auth_response` registers every id that passes `is_valid_user_id`; it does not ask
`validate_user_id`, which knows the reserved ids.  The registered ids are valid in exactly the runs
in which no new user presents an invalid one (`registered_ids_valid_iff`).
-/

open Container Run

namespace Ircord

namespace UserStore

variable {db db' : Database} {u : Str}

theorem mem_users_iff : u ∈ db.users ↔ ∃ key, identityKey db u = some key := by
  rw [UnorderedMap.mem_iff_lookup]
  constructor
  · rintro ⟨row, hrow⟩
    exact ⟨row.identityPub, identityKey_eq_some.2 ⟨row, hrow, rfl⟩⟩
  · rintro ⟨key, hkey⟩
    obtain ⟨row, hrow, -⟩ := identityKey_eq_some.1 hkey
    exact ⟨row, hrow⟩

theorem KeysKept.mem_of_mem {clears : Prop} (h : KeysKept clears db db') (hu : u ∈ db'.users) :
    u ∈ db.users := by
  obtain ⟨key, hkey⟩ := mem_users_iff.1 hu
  rcases h with h | ⟨-, h⟩
  · exact mem_users_iff.2 ⟨key, (h u).symm.trans hkey⟩
  · rw [h u] at hkey
    cases hkey

theorem KeysKept.mem (h : KeysKept False db db') (hu : u ∈ db.users) : u ∈ db'.users := by
  obtain ⟨key, hkey⟩ := mem_users_iff.1 hu
  exact mem_users_iff.2 ⟨key, (identityKey_of_keysKept h u).trans hkey⟩

end UserStore

section Verified

variable {crypto : Crypto} {db db' : Database} {auth : AuthResponse} {u : Str}

theorem Verified.mem_cases (h : Verified crypto auth db db')
    (hu : u ∈ db'.users) : u ∈ db.users ∨ u = auth.userId := by
  by_cases huser : u = auth.userId
  · exact Or.inr huser
  · obtain ⟨key, hkey⟩ := UserStore.mem_users_iff.1 hu
    exact Or.inl (UserStore.mem_users_iff.2 ⟨key, (h.others u huser).symm.trans hkey⟩)

theorem Verified.mem (h : Verified crypto auth db db') (hu : u ∈ db.users) :
    u ∈ db'.users := by
  by_cases huser : u = auth.userId
  · rw [huser]
    exact UserStore.mem_users_of_identityKey h.key
  · obtain ⟨key, hkey⟩ := UserStore.mem_users_iff.1 hu
    exact UserStore.mem_users_iff.2 ⟨key, (h.others u huser).trans hkey⟩

end Verified

namespace Server

section Definitions

variable (codec : Codec) (crypto : Crypto) (sv : Server) (i : Input)

/-- `validate_user_id` accepts the ids of the users that the step inserts. -/
def InsertsValid : Prop :=
  ∀ u, u ∉ sv.db.users → u ∈ (sv.step codec crypto i).db.users →
    UserStore.validateUserId [] u = []

/-- `validate_user_id` accepts the id in every `AUTH_RESPONSE` that passes the checks of
`handle_auth_response` and names a user without a row. -/
def PresentsValid : Prop :=
  ∀ (s : SessionId) (c : SessionCore) (auth : AuthResponse), sv.core s = some c →
    receivedAuth codec s sv i = some auth → Presents crypto sv c.authNonce auth →
    UserStore.findById sv.db auth.userId = none → UserStore.validateUserId [] auth.userId = []

/-- No session is established for the owner id. -/
def NoAdmin : Prop :=
  ∀ (s : SessionId) (x : Session), sv.sessions[s]? = some x → x.state = .established →
    x.userId ≠ CommandHandler.adminUser

/-- The step removes no user, as an accepted `/resetdb` would do. -/
def KeepsUsers : Prop := ∀ u ∈ sv.db.users, u ∈ (sv.step codec crypto i).db.users

end Definitions

section Proofs

variable {codec : Codec} {crypto : Crypto} {sv sv' : Server} {i : Input} {s t : SessionId}
  {x : Session} {c : SessionCore} {u : Str} {auth : AuthResponse}

/-! ## Which users a step inserts -/

/-- An inserted user has presented itself. -/
theorem presents_of_inserted (hu : u ∉ sv.db.users)
    (hu' : u ∈ (sv.step codec crypto i).db.users) :
    ∃ s x auth, sv.sessions[s]? = some x ∧ receivedAuth codec s sv i = some auth ∧
      Presents crypto sv x.authNonce auth ∧ auth.userId = u := by
  rcases keys_step codec crypto sv i with hkept | ⟨s, x, auth, found, received, presents, h⟩
  · exact absurd (hkept.mem_of_mem hu') hu
  · exact ⟨s, x, auth, found, received, presents,
      ((h.verified.mem_cases hu').resolve_left hu).symm⟩

theorem receivedAuth_eq_some (hc : sv.core s = some c)
    (h : receivedAuth codec s sv i = some auth) :
    ∃ env, delivered codec s sv i = some env ∧ c.state = .authPending ∧
      env.type = .authResponse ∧ env.parsePayload codec.authResponse = some auth := by
  unfold receivedAuth at h
  rw [hc] at h
  split at h
  · rename_i c' env hc' hdelivered
    cases hc'
    split_ifs at h with hcond
    exact ⟨env, hdelivered, hcond.1, hcond.2, h⟩
  · cases h

/-- A user without a row that presents itself is inserted. -/
theorem inserted_of_presents (found : sv.sessions[s]? = some x)
    (received : receivedAuth codec s sv i = some auth)
    (presents : Presents crypto sv x.authNonce auth)
    (hnew : UserStore.findById sv.db auth.userId = none) :
    auth.userId ∈ (sv.step codec crypto i).db.users := by
  obtain ⟨env, hdelivered, hstate, htype, hparse⟩ :=
    receivedAuth_eq_some (core_of_sessions found) received
  obtain ⟨y, hy, e⟩ := @step_of_delivered codec crypto sv s i env hdelivered
  cases found.symm.trans hy
  have hstate : x.state = .authPending := hstate
  have hhandled := @handleAuthResponse_of_new codec crypto i.draws
    (sv.modify s fun x => { x with reading := none }) s x auth
    ⟨presents.userId, presents.available, presents.keyLength, presents.signatureLength,
      presents.verified⟩ hnew
  rw [e]
  unfold handleEnvelope
  rw [htype]
  dsimp only
  rw [if_pos hstate, hparse]
  exact UserStore.mem_users_of_identityKey hhandled.verified.key

/-- A step inserts invalid ids exactly if one presents itself. -/
theorem insertsValid_iff (codec : Codec) (crypto : Crypto) (sv : Server) (i : Input) :
    InsertsValid codec crypto sv i ↔ PresentsValid codec crypto sv i := by
  constructor
  · intro h s c auth hc received presents hnew
    obtain ⟨x, found, rfl⟩ := core_eq_some.1 hc
    refine h auth.userId ?_ (inserted_of_presents found received presents hnew)
    exact AList.lookup_eq_none.1 (UserStore.findById_eq_none.1 hnew)
  · intro h u hu hu'
    obtain ⟨s, x, auth, found, received, presents, rfl⟩ := presents_of_inserted hu hu'
    refine h s x.core auth (core_of_sessions found) received presents ?_
    exact UserStore.findById_eq_none.2 (AList.lookup_eq_none.2 hu)

/-! ## The owner id -/

/-- The owner id is taken by nobody. -/
structure AdminFree (sv : Server) : Prop where
  wellFormed : WellFormed sv
  row : CommandHandler.adminUser ∉ sv.db.users
  noAdmin : NoAdmin sv

theorem adminFree_start (config : Config) {db : Database}
    (h : CommandHandler.adminUser ∉ db.users) : AdminFree (start config db) :=
  ⟨wellFormed_start config db, h, fun _ _ hx => by cases hx⟩

/-- The owner id is reserved. -/
theorem validateUserId_adminUser : UserStore.validateUserId [] CommandHandler.adminUser ≠ [] := by
  rw [Ne, UserStore.validateUserId_eq_nil]
  rintro ⟨-, -, -, hreserved⟩
  exact absurd hreserved (by decide)

/-- A session that is established after a step was so before, or authenticates in it. -/
theorem Progress.of_established {slot : Option SessionCore}
    (h : Progress codec crypto s sv i slot (some c)) (hstate : c.state = .established) :
    (∃ c₀, slot = some c₀ ∧ c₀.state = .established ∧ c₀.userId = c.userId) ∨
      ∃ nonce auth, AcceptsAuth codec crypto s sv i nonce auth ∧ auth.userId = c.userId := by
  cases h with
  | accepted => cases hstate
  | same c₀ c state userId authNonce =>
    exact Or.inl ⟨c₀, rfl, state.symm.trans hstate, userId.symm⟩
  | handshake c₀ c before after => cases after.symm.trans hstate
  | hello c₀ c before after => cases after.symm.trans hstate
  | auth c₀ c auth before after userId authNonce accepts =>
    exact Or.inr ⟨c₀.authNonce, auth, accepts, userId.symm⟩
  | dead c₀ c after => cases after.symm.trans hstate

theorem adminFree_step (i : Input) (h : AdminFree sv)
    (hpresents : PresentsValid codec crypto sv i) : AdminFree (sv.step codec crypto i) := by
  have hrow : CommandHandler.adminUser ∉ (sv.step codec crypto i).db.users := fun hmem =>
    validateUserId_adminUser
      ((insertsValid_iff codec crypto sv i).2 hpresents _ h.row hmem)
  refine ⟨wellFormed_step codec crypto i h.wellFormed, hrow, fun t x' hx' hstate' hadmin => ?_⟩
  have hprogress := @progress codec crypto sv i h.wellFormed t
  rw [core_of_sessions hx'] at hprogress
  rcases hprogress.of_established hstate' with
    ⟨c, hc, hstate, huser⟩ | ⟨nonce, auth, accepts, huser⟩
  · obtain ⟨x, hx, rfl⟩ := core_eq_some.1 hc
    exact h.noAdmin t x hx hstate (huser.trans hadmin)
  · obtain ⟨row, hauth, -⟩ := accepts.stored
    rw [huser.trans hadmin] at hauth
    exact hrow (UnorderedMap.mem_iff_lookup.2 ⟨row, hauth⟩)

/-- Only the admin removes users. -/
theorem keepsUsers_of_noAdmin (codec : Codec) (crypto : Crypto) (i : Input) (h : NoAdmin sv) :
    KeepsUsers codec crypto sv i := by
  intro u hu
  rcases keys_step codec crypto sv i with hkept | ⟨s, x, auth, found, received, presents, hauth⟩
  · refine (hkept.mono ?_).mem hu
    rintro ⟨s, c, hc, hstate, huser⟩
    obtain ⟨x, found, rfl⟩ := core_eq_some.1 hc
    exact h s x found hstate huser
  · exact hauth.verified.mem hu

/-- The users that are inserted in a run have valid ids exactly if every user without a row that
passes the checks of `handle_auth_response` presents a valid id.  If moreover the owner id had no
row at the start, no session is ever established for it, and no user is ever removed. -/
theorem registered_ids_valid_iff (codec : Codec) (crypto : Crypto) (config : Config) (db : Database)
    (is : List Input) :
    (AllSteps (step codec crypto) (InsertsValid codec crypto) (start config db) is ↔
      AllSteps (step codec crypto) (PresentsValid codec crypto) (start config db) is) ∧
    (CommandHandler.adminUser ∉ db.users →
      AllSteps (step codec crypto) (PresentsValid codec crypto) (start config db) is →
      AllStates (step codec crypto) NoAdmin (start config db) is ∧
        AllSteps (step codec crypto) (KeepsUsers codec crypto) (start config db) is) := by
  constructor
  · constructor
    · exact fun h => h.mono fun sv i => (insertsValid_iff codec crypto sv i).1
    · exact fun h => h.mono fun sv i => (insertsValid_iff codec crypto sv i).2
  · intro hadmin hpresents
    have hfree : AllStates (step codec crypto) AdminFree (start config db) is :=
      .of_steps (adminFree_start config hadmin) (fun _ i h => adminFree_step i h) hpresents
    exact ⟨hfree.mono fun _ h => h.noAdmin,
      hfree.toSteps fun _ i h => keepsUsers_of_noAdmin codec crypto i h.noAdmin⟩

/-! ## A client that registers as the owner -/

/-- The signature of `admin` for a challenge of zeros. -/
def adminSignature : Bytes :=
  [245, 192, 160, 163, 108, 69, 129, 243, 226, 198, 150, 53, 219, 216, 149, 162, 51, 12, 38, 151,
    78, 155, 223, 150, 157, 107, 192, 26, 176, 151, 136, 172, 193, 170, 229, 111, 28, 184, 183, 209,
    134, 9, 10, 36, 102, 215, 193, 231, 116, 234, 119, 30, 160, 158, 175, 91, 50, 105, 1, 116, 166,
    36, 239, 2]

/-- A client logs in as `admin`, and asks for a reset. -/
def resetdbRun : List Input :=
  (loginEvents 0 (str "admin") adminSignature ++ frameEvents 0 .command
    (Codec.proto3.ircCommand.serialize ⟨str "resetdb", []⟩)).map Event.atZero

/-- The server after the first `k` steps of the run. -/
def duringResetdb (k : ℕ) : Server :=
  final (step .proto3 (loginCrypto (str "admin") adminSignature)) (start ⟨10, 10, 10, []⟩ .empty)
    (resetdbRun.take k)

/-- The owner id is registered and established, and its `/resetdb` removes the users. -/
theorem not_registeredIdsValid_resetdbRun :
    ¬ AllSteps (step .proto3 (loginCrypto (str "admin") adminSignature))
        (InsertsValid .proto3 (loginCrypto (str "admin") adminSignature))
        (start ⟨10, 10, 10, []⟩ .empty) resetdbRun ∧
      ¬ AllStates (step .proto3 (loginCrypto (str "admin") adminSignature)) NoAdmin
        (start ⟨10, 10, 10, []⟩ .empty) resetdbRun ∧
      ¬ AllSteps (step .proto3 (loginCrypto (str "admin") adminSignature))
        (KeepsUsers .proto3 (loginCrypto (str "admin") adminSignature))
        (start ⟨10, 10, 10, []⟩ .empty) resetdbRun := by
  refine ⟨fun hall => ?_, fun hall => ?_, fun hall => ?_⟩
  · have hinserts : InsertsValid .proto3 (loginCrypto (str "admin") adminSignature)
      (duringResetdb 5) (resetdbRun.get ⟨5, by decide⟩) := hall.after 5 (by decide)
    have hnew : CommandHandler.adminUser ∉ (duringResetdb 5).db.users := by decide +kernel
    have hrow : CommandHandler.adminUser ∈ (step .proto3 (loginCrypto (str "admin") adminSignature)
      (duringResetdb 5) (resetdbRun.get ⟨5, by decide⟩)).db.users := by decide +kernel
    exact validateUserId_adminUser (hinserts _ hnew hrow)
  · have hnoAdmin : NoAdmin (duringResetdb 6) := hall.after 6
    obtain ⟨x, found, hx⟩ := @found_of_any (duringResetdb 6) 0
      (fun x => x.state == .established && x.userId == CommandHandler.adminUser) (by decide +kernel)
    obtain ⟨hstate, huser⟩ := (Bool.and_eq_true _ _).mp hx
    exact hnoAdmin 0 x found (beq_iff_eq.1 hstate) (beq_iff_eq.1 huser)
  · have hkeeps : KeepsUsers .proto3 (loginCrypto (str "admin") adminSignature)
      (duringResetdb 7) (resetdbRun.get ⟨7, by decide⟩) := hall.after 7 (by decide)
    have hrow : CommandHandler.adminUser ∈ (duringResetdb 7).db.users := by decide +kernel
    have hgone : CommandHandler.adminUser ∉ (step .proto3
      (loginCrypto (str "admin") adminSignature) (duringResetdb 7)
      (resetdbRun.get ⟨7, by decide⟩)).db.users := by decide +kernel
    exact hgone (hkeeps _ hrow)

end Proofs

end Server

end Ircord

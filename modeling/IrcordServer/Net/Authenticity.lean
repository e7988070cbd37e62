import IrcordServer.Net.Invariant

/-!
# Who is authenticated

In every run a session goes through its states in order, and it is established for a user only
after it has proved to hold the user's identity key: `authenticity`.
-/

open Container Run

namespace Ircord

namespace Server

section Authenticity

variable (codec : Codec) (crypto : Crypto)

/-- In the step `i` the session `s`, which had been sent the challenge `nonce`, presents `auth` and
gets established for its user, whose row then has the presented key. -/
structure AcceptsAuth (s : SessionId) (sv : Server) (i : Input) (nonce : Bytes)
    (auth : AuthResponse) : Prop where
  received : receivedAuth codec s sv i = some auth
  challenged : ∃ c, sv.core s = some c ∧ c.authNonce = nonce
  keyLength : auth.identityPub.length = 32
  signatureLength : auth.signature.length = 64
  verified : crypto.signVerifyDetached auth.signature (nonce ++ auth.userId) auth.identityPub = true
  established : ∃ c, (sv.step codec crypto i).core s = some c ∧ c.state = .established ∧
    c.userId = auth.userId
  stored : ∃ row, (sv.step codec crypto i).db.users.lookup auth.userId = some row ∧
    row.identityPub = auth.identityPub

/-- The step `i` overwrites the identity key of a user only by an accepted `AUTH_RESPONSE` whose
password verifies against the hash in the user's row. -/
def OverwritesByPassword (sv : Server) (i : Input) : Prop :=
  ∀ u row row', sv.db.users.lookup u = some row →
    (sv.step codec crypto i).db.users.lookup u = some row' → row'.identityPub ≠ row.identityPub →
    ∃ s nonce auth hash, AcceptsAuth codec crypto s sv i nonce auth ∧ auth.userId = u ∧
      row.passwordHash = some hash ∧ crypto.pwhashStrVerify hash auth.password = true

/-- The session `s` accepted one `HELLO` in the run `is` and, after it, an `AUTH_RESPONSE` for the
user `u` signed for the challenge it drew then. -/
def HasAuthenticated (sv₀ : Server) (is : List Input) (s : SessionId) (nonce : Bytes)
    (u : Str) : Prop :=
  observe (step codec crypto) (acceptedHello codec s) sv₀ is = [nonce] ∧
    ∃ before i after auth, is = before ++ i :: after ∧ auth.userId = u ∧
      observe (step codec crypto) (acceptedHello codec s) sv₀ before = [nonce] ∧
      AcceptsAuth codec crypto s (final (step codec crypto) sv₀ before) i nonce auth

/-! ## The way of one session -/

/-- How the part of a session that matters for authentication changes in one step. -/
inductive Progress (s : SessionId) (sv : Server) (i : Input) :
    Option SessionCore → Option SessionCore → Prop
  | absent : Progress s sv i none none
  | accepted : Progress s sv i none (some Session.new.core)
  | same (c c' : SessionCore) (state : c'.state = c.state) (userId : c'.userId = c.userId)
      (authNonce : c'.authNonce = c.authNonce) : Progress s sv i (some c) (some c')
  | handshake (c c' : SessionCore) (before : c.state = .handshake) (after : c'.state = .hello) :
      Progress s sv i (some c) (some c')
  | hello (c c' : SessionCore) (before : c.state = .hello) (after : c'.state = .authPending)
      (accepted : acceptedHello codec s sv i = some c'.authNonce) :
      Progress s sv i (some c) (some c')
  | auth (c c' : SessionCore) (auth : AuthResponse) (before : c.state = .authPending)
      (after : c'.state = .established) (userId : c'.userId = auth.userId)
      (authNonce : c'.authNonce = c.authNonce)
      (accepts : AcceptsAuth codec crypto s sv i c.authNonce auth) :
      Progress s sv i (some c) (some c')
  | dead (c c' : SessionCore) (after : c'.state = .dead) : Progress s sv i (some c) (some c')

variable {codec crypto} {sv sv' : Server} {i : Input} {s t : SessionId} {c c' : SessionCore}

theorem progress_of_eq (h : sv'.core s = sv.core s) :
    Progress codec crypto s sv i (sv.core s) (sv'.core s) := by
  rw [h]
  cases sv.core s with
  | none => exact .absent
  | some c => exact .same c c rfl rfl rfl

theorem SessionStep.progress {x : Session} (h : WellFormed sv) (found : sv.sessions[s]? = some x)
    (hstep : SessionStep codec s sv i x.core c') :
    Progress codec crypto s sv i (some x.core) (some c') := by
  cases hstep with
  | same => exact .same _ _ rfl rfl rfl
  | handshake busy => exact .handshake _ _ (by rw [h.fresh s x found busy]; rfl) rfl
  | header => exact .same _ _ rfl rfl rfl
  | frame =>
    obtain ⟨hstate, huser, hnonce, -⟩ := readNext_eq (stopReading x.core)
    exact .same _ _ hstate huser hnonce
  | hello nonce size reads accepted state =>
    obtain ⟨hstate, -, hnonce, -⟩ := readNext_eq (challenged nonce (stopReading x.core))
    exact .hello _ _ state hstate (by rw [hnonce]; exact accepted)
  | closed => exact .dead _ _ rfl

theorem acceptsAuth_of_effect {x : Session} {auth : AuthResponse}
    (hsv' : sv.step codec crypto i = sv') (found : sv.sessions[s]? = some x)
    (received : receivedAuth codec s sv i = some auth)
    (presents : Presents crypto sv x.authNonce auth)
    (authenticates : Authenticates crypto s auth
      (readNext ∘ authenticated auth.userId ∘ stopReading) sv sv') :
    AcceptsAuth codec crypto s sv i x.authNonce auth where
  received := received
  challenged := ⟨x.core, core_of_sessions found, rfl⟩
  keyLength := presents.keyLength
  signatureLength := presents.signatureLength
  verified := presents.verified
  established := by
    obtain ⟨hstate, huser, -⟩ := authenticated_eq auth.userId x.core
    refine ⟨_, ?_, hstate, huser⟩
    rw [hsv', authenticates.core, if_pos rfl, core_of_sessions found]
    rfl
  stored := by
    rw [hsv']
    exact UserStore.identityKey_eq_some.1 authenticates.verified.key

theorem progress (h : WellFormed sv) (s : SessionId) :
    Progress codec crypto s sv i (sv.core s) ((sv.step codec crypto i).core s) := by
  have heffect := step_effect codec crypto sv i
  generalize hsv' : sv.step codec crypto i = sv' at heffect ⊢
  cases heffect with
  | background quiet => exact progress_of_eq (quiet.core s)
  | session t x g found alive fresh step moves =>
    by_cases hts : t = s
    · subst hts
      rw [moves.core, if_pos rfl, core_of_sessions found]
      exact step.progress h found
    · exact progress_of_eq (by rw [moves.core, if_neg hts])
  | auth t x auth found size reads state received presents authenticates =>
    by_cases hts : t = s
    · subst hts
      have hcore := core_of_sessions found
      have hafter : sv'.core t =
          some (readNext (authenticated auth.userId (stopReading x.core))) := by
        rw [authenticates.core, if_pos rfl, hcore]
        rfl
      obtain ⟨hstate, huser, hnonce, -⟩ := authenticated_eq auth.userId x.core
      rw [hafter, hcore]
      exact .auth _ _ auth state hstate huser hnonce
        (acceptsAuth_of_effect hsv' found received presents authenticates)
    · exact progress_of_eq (by rw [authenticates.core, if_neg hts])
  | teardown t x sv₁ g found call alive completes fresh moves quiet =>
    by_cases hts : t = s
    · subst hts
      rw [core_of_teardown moves quiet, if_pos rfl, core_of_sessions found]
      exact .same _ _ (completes.state _) (completes.userId _) (completes.authNonce _)
    · exact progress_of_eq (by rw [core_of_teardown moves quiet, if_neg hts])
  | accept sessions sessionsByUser usersBySession below maxConnections activeConnections
      disconnected keys =>
    cases hc : sv.core s with
    | some c =>
      rw [core_of_accept sessions hc]
      exact .same _ _ rfl rfl rfl
    | none =>
      cases hc' : sv'.core s with
      | none => exact .absent
      | some c' =>
        obtain ⟨x', hx', rfl⟩ := core_eq_some.1 hc'
        rcases sessions_of_accept sessions hx' with hx | ⟨-, rfl⟩
        · rw [core_of_sessions hx] at hc
          cases hc
        · exact .accepted
  | shutdown event first core untouched sessionsByUser usersBySession activeConnections
      disconnected keys =>
    exact progress_of_eq (core s)

/-- States only move forward. -/
theorem Progress.rank_le {slot slot' : Option SessionCore}
    (h : Progress codec crypto s sv i slot slot') (hslot : slot = some c) :
    ∃ c', slot' = some c' ∧ c.state.rank ≤ c'.state.rank := by
  cases h with
  | absent | accepted => cases hslot
  | same c₀ c' state =>
    cases hslot
    exact ⟨c', rfl, le_of_eq (congrArg _ state.symm)⟩
  | handshake c₀ c' before after =>
    cases hslot
    exact ⟨c', rfl, by rw [before, after]; decide⟩
  | hello c₀ c' before after =>
    cases hslot
    exact ⟨c', rfl, by rw [before, after]; decide⟩
  | auth c₀ c' auth before after =>
    cases hslot
    exact ⟨c', rfl, by rw [before, after]; decide⟩
  | dead c₀ c' after =>
    cases hslot
    exact ⟨c', rfl, by rw [after]; cases c.state <;> decide⟩

theorem rank_le_final (h : WellFormed sv) (is : List Input) (hc : sv.core s = some c) :
    ∃ c', (final (step codec crypto) sv is).core s = some c' ∧ c.state.rank ≤ c'.state.rank := by
  induction is generalizing sv c with
  | nil => exact ⟨c, hc, le_refl _⟩
  | cons i is ih =>
    obtain ⟨c₁, hc₁, hle₁⟩ := (@progress codec crypto sv i h s).rank_le hc
    obtain ⟨c', hc', hle'⟩ := ih (wellFormed_step codec crypto i h) hc₁
    exact ⟨c', hc', hle₁.trans hle'⟩

/-! ## The accepted `HELLO` -/

theorem acceptedHello_spec {nonce : Bytes} (h : acceptedHello codec s sv i = some nonce) :
    ∃ c c', sv.core s = some c ∧ c.state = .hello ∧
      (sv.step codec crypto i).core s = some c' ∧ c'.state = .authPending ∧
      c'.authNonce = nonce := by
  unfold acceptedHello at h
  split at h
  · rename_i c env hc hdelivered
    split_ifs at h with hcond
    obtain ⟨hstate, htype⟩ := hcond
    obtain ⟨hello, hfilter, rfl⟩ := Option.map_eq_some_iff.1 h
    obtain ⟨hparse, hversion⟩ := Option.filter_eq_some_iff.1 hfilter
    obtain ⟨x, found, e⟩ := @step_of_delivered codec crypto sv s i env hdelivered
    have hxc := (core_of_sessions found).symm.trans hc
    obtain rfl : x.core = c := Option.some.inj hxc
    have hxstate : x.state = .hello := hstate
    have hmoves : Moves False s (challenged i.draws.nonce)
        (sv.modify s fun x => { x with reading := none })
        ((sv.modify s fun x => { x with reading := none }).handleEnvelope codec crypto i.draws s x
          env) := by
      unfold handleEnvelope
      rw [htype]
      dsimp only
      rw [if_pos hxstate, hparse]
      exact handleHello_accepted (of_decide_eq_true hversion)
    have hcore := ((stopReading_moves.trans hmoves).trans doReadFrameHeader_moves).core s
    rw [if_pos rfl, hc] at hcore
    obtain ⟨hstate', -, hnonce', -⟩ :=
      readNext_eq (challenged i.draws.nonce (stopReading x.core))
    exact ⟨x.core, _, hc, hstate, by rw [e]; exact hcore, hstate', hnonce'⟩
  · cases h

/-! ## The whole run -/

section History

variable (codec crypto)

/-- What the accepted messages of the run `is` are when the session `s` is there with the core `c`
after it. -/
structure Told (sv₀ : Server) (s : SessionId) (is : List Input) (c : SessionCore) : Prop where
  before : c.state = .handshake ∨ c.state = .hello →
    observe (step codec crypto) (acceptedHello codec s) sv₀ is = []
  pending : c.state = .authPending →
    observe (step codec crypto) (acceptedHello codec s) sv₀ is = [c.authNonce]
  established : c.state = .established →
    HasAuthenticated codec crypto sv₀ is s c.authNonce c.userId

/-- The same for any session number. -/
def History (sv₀ : Server) (s : SessionId) (is : List Input) (sv : Server) : Prop :=
  (sv.core s = none → observe (step codec crypto) (acceptedHello codec s) sv₀ is = []) ∧
    ∀ c, sv.core s = some c → Told codec crypto sv₀ s is c

variable {codec crypto} {sv₀ : Server} {is : List Input}

theorem HasAuthenticated.snoc {nonce : Bytes} {u : Str}
    (h : HasAuthenticated codec crypto sv₀ is s nonce u)
    (hnone : acceptedHello codec s (final (step codec crypto) sv₀ is) i = none) :
    HasAuthenticated codec crypto sv₀ (is ++ [i]) s nonce u := by
  obtain ⟨hhellos, before, j, after, auth, rfl, hrest⟩ := h
  refine ⟨?_, before, j, after ++ [i], auth, by rw [List.append_assoc]; rfl, hrest⟩
  rw [observe_snoc, hhellos, hnone]
  rfl

/-- A step that lets the session accept a `HELLO`. -/
theorem told_of_hello {nonce : Bytes} (hc : sv.core s = some c)
    (htold : Told codec crypto sv₀ s is c)
    (hsv : final (step codec crypto) sv₀ is = sv)
    (hhello : acceptedHello codec s sv i = some nonce)
    (hc' : (sv.step codec crypto i).core s = some c') :
    Told codec crypto sv₀ s (is ++ [i]) c' := by
  obtain ⟨c₁, c₁', hc₁, hstate, hc₁', hstate', hnonce'⟩ :=
    @acceptedHello_spec codec crypto sv i s nonce hhello
  cases hc₁.symm.trans hc
  cases hc₁'.symm.trans hc'
  have hhellos : observe (step codec crypto) (acceptedHello codec s) sv₀ (is ++ [i]) =
      [c'.authNonce] := by
    rw [observe_snoc, htold.before (Or.inr hstate), hsv, hhello, hnonce']
    rfl
  exact
    { before := fun e => by rw [hstate'] at e; rcases e with e | e <;> cases e
      pending := fun _ => hhellos
      established := fun e => by rw [hstate'] at e; cases e }

/-- A step without an accepted `HELLO`. -/
theorem told_of_progress (htold : Told codec crypto sv₀ s is c)
    (hnone : acceptedHello codec s (final (step codec crypto) sv₀ is) i = none)
    (hprogress : Progress codec crypto s (final (step codec crypto) sv₀ is) i (some c) (some c')) :
    Told codec crypto sv₀ s (is ++ [i]) c' := by
  have hsame : observe (step codec crypto) (acceptedHello codec s) sv₀ (is ++ [i]) =
      observe (step codec crypto) (acceptedHello codec s) sv₀ is := by
    rw [observe_snoc, hnone, Option.toList_none, List.append_nil]
  cases hprogress with
  | same _ _ state userId authNonce =>
    exact
      { before := fun e => hsame.trans (htold.before (state ▸ e))
        pending := fun e => by
          rw [hsame, authNonce]
          exact htold.pending (state ▸ e)
        established := fun e => by
          rw [authNonce, userId]
          exact (htold.established (state ▸ e)).snoc hnone }
  | handshake _ _ before after =>
    exact
      { before := fun _ => hsame.trans (htold.before (Or.inl before))
        pending := fun e => by rw [after] at e; cases e
        established := fun e => by rw [after] at e; cases e }
  | hello _ _ before after accepted =>
    rw [hnone] at accepted
    cases accepted
  | auth _ _ auth before after userId authNonce accepts =>
    have hhellos := htold.pending before
    exact
      { before := fun e => by rw [after] at e; rcases e with e | e <;> cases e
        pending := fun e => by rw [after] at e; cases e
        established := fun _ => by
          rw [authNonce]
          exact ⟨hsame.trans hhellos, is, i, [], auth, rfl, userId.symm, hhellos, accepts⟩ }
  | dead _ _ after =>
    exact
      { before := fun e => by rw [after] at e; rcases e with e | e <;> cases e
        pending := fun e => by rw [after] at e; cases e
        established := fun e => by rw [after] at e; cases e }

theorem history_snoc (hw : WellFormed (final (step codec crypto) sv₀ is))
    (h : History codec crypto sv₀ s is (final (step codec crypto) sv₀ is)) :
    History codec crypto sv₀ s (is ++ [i])
      ((final (step codec crypto) sv₀ is).step codec crypto i) := by
  obtain ⟨habsent, hpresent⟩ := h
  have hprogress := @progress codec crypto _ i hw s
  cases hhello : acceptedHello codec s (final (step codec crypto) sv₀ is) i with
  | some nonce =>
    obtain ⟨c, c', hc, -, hc', -⟩ := @acceptedHello_spec codec crypto _ i s nonce hhello
    refine ⟨fun e => ?_, fun c₁' hc₁' => ?_⟩
    · rw [hc'] at e
      cases e
    · exact told_of_hello hc (hpresent c hc) rfl hhello hc₁'
  | none =>
    refine ⟨fun e => ?_, fun c' hc' => ?_⟩
    · cases hc : (final (step codec crypto) sv₀ is).core s with
      | none => rw [observe_snoc, habsent hc, hhello]; rfl
      | some c =>
        obtain ⟨c', hc', -⟩ := hprogress.rank_le hc
        rw [hc'] at e
        cases e
    · cases hc : (final (step codec crypto) sv₀ is).core s with
      | some c =>
        rw [hc, hc'] at hprogress
        exact told_of_progress (hpresent c hc) hhello hprogress
      | none =>
        rw [hc, hc'] at hprogress
        cases hprogress with
        | accepted =>
          refine ⟨fun _ => ?_, fun e => ?_, fun e => ?_⟩
          · rw [observe_snoc, habsent hc, hhello]
            rfl
          · cases e
          · cases e

theorem history (config : Config) (db : Database) (s : SessionId) (is : List Input) :
    History codec crypto (start config db) s is
      (final (step codec crypto) (start config db) is) := by
  refine history_induction ?_ (fun is i h => ?_) is
  · exact ⟨fun _ => rfl, fun c hc => by cases hc⟩
  · exact history_snoc (wellFormed_run codec crypto config db is).final h

end History

/-! ## Identity keys -/

theorem overwritesByPassword (sv : Server) (i : Input) :
    OverwritesByPassword codec crypto sv i := by
  intro u row row' hrow hrow' hne
  have hkey' : UserStore.identityKey (sv.step codec crypto i).db u = some row'.identityPub :=
    UserStore.identityKey_eq_some.2 ⟨row', hrow', rfl⟩
  rcases keys_step codec crypto sv i with hkept | ⟨s, x, auth, found, received, presents, h⟩
  · -- all other steps keep the key
    exfalso
    rcases hkept with hsame | ⟨-, hnone⟩
    · rw [hsame, UserStore.identityKey, hrow] at hkey'
      exact hne (Option.some.inj hkey').symm
    · rw [hnone] at hkey'
      cases hkey'
  · by_cases hu : u = auth.userId
    · subst hu
      have hpresented := Option.some.inj (hkey'.symm.trans h.verified.key)
      have hdiffers : row.identityPub ≠ auth.identityPub := fun e =>
        hne (hpresented.trans e.symm)
      obtain ⟨hash, hhash, hright⟩ := h.verified.recovered row hrow hdiffers
      exact ⟨s, x.authNonce, auth, hash, acceptsAuth_of_effect rfl found received presents h, rfl,
        hhash, hright⟩
    · have hother := h.verified.others u hu
      rw [hkey', UserStore.identityKey, hrow] at hother
      exact absurd (Option.some.inj hother) hne

/-- In every run the states of a session only move forward and end with `Dead`; a session that is
established for a user has accepted one `HELLO` and then an `AUTH_RESPONSE` that was signed, for the
challenge drawn at the `HELLO`, with the key that is in the user's row at the end of that step; and
the key of a user is overwritten by such an `AUTH_RESPONSE` with the right password only. -/
theorem authenticity (codec : Codec) (crypto : Crypto) (config : Config) (db : Database)
    (is : List Input) :
    (∀ (before after : List Input) (s : SessionId) (x : Session), is = before ++ after →
      (final (step codec crypto) (start config db) before).sessions[s]? = some x →
      ∃ x' : Session, (final (step codec crypto) (start config db) is).sessions[s]? = some x' ∧
        x.state.rank ≤ x'.state.rank ∧ (x.state = .dead → x'.state = .dead)) ∧
    (∀ (s : SessionId) (x : Session),
      (final (step codec crypto) (start config db) is).sessions[s]? = some x →
      x.state = .established →
      HasAuthenticated codec crypto (start config db) is s x.authNonce x.userId) ∧
    AllSteps (step codec crypto) (OverwritesByPassword codec crypto) (start config db) is := by
  have hw := wellFormed_run codec crypto config db is
  refine ⟨?_, ?_, hw.toSteps fun sv i _ => overwritesByPassword sv i⟩
  · rintro before after s x rfl hx
    have hbefore := allStates_iff.1 hw before after rfl
    obtain ⟨c', hc', hle⟩ := rank_le_final hbefore after (core_of_sessions hx)
    rw [← final_append] at hc'
    obtain ⟨x', hx', rfl⟩ := core_eq_some.1 hc'
    refine ⟨x', hx', hle, fun hdead => ?_⟩
    have hrank : 4 ≤ x'.state.rank := by
      have hle' : x.state.rank ≤ x'.state.rank := hle
      rwa [hdead] at hle'
    revert hrank
    cases x'.state <;> decide
  · intro s x hx hstate
    exact ((history config db s is).2 x.core (core_of_sessions hx)).established hstate

end Authenticity

end Server

end Ircord

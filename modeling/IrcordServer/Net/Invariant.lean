import IrcordServer.Net.Effect

/-!
# The invariant of the server

Three facts hold in every state of every run: the two maps of the registry are inverse to each
other, a registered session was authenticated for the user it is registered under, and a session
that is still in its TLS handshake is untouched.
-/

open Container Run

namespace Ircord

namespace Server

structure WellFormed (sv : Server) : Prop where
  registry : MutuallyInverse sv.sessionsByUser sv.usersBySession
  registered : ∀ (s : SessionId) (userId : Str), sv.usersBySession.lookup s = some userId →
    ∃ c, sv.core s = some c ∧ c.userId = userId ∧ (c.state = .established ∨ c.state = .dead)
  fresh : ∀ (s : SessionId) (x : Session), sv.sessions[s]? = some x → x.handshaking = true →
    x = .new

section Facts

variable {codec : Codec} {crypto : Crypto} {sv sv' : Server} {i : Input} {s t : SessionId}
  {c c' : SessionCore}

theorem WellFormed.registered_iff (h : WellFormed sv) :
    sv.Registered s ↔ ∃ userId, sv.usersBySession.lookup s = some userId := by
  rw [Server.registered_iff, UnorderedMap.mem_iff_lookup]
  simp only [h.registry _ _, or_self]

theorem core_eq_some : sv.core s = some c ↔ ∃ x, sv.sessions[s]? = some x ∧ x.core = c :=
  Option.map_eq_some_iff

/-- A session in its handshake is not registered. -/
theorem WellFormed.not_registered (h : WellFormed sv) {x : Session}
    (hx : sv.sessions[s]? = some x) (hnew : x = .new) : ¬ sv.Registered s := by
  rw [h.registered_iff]
  rintro ⟨userId, huser⟩
  obtain ⟨c, hc, -, hstate⟩ := h.registered s userId huser
  rw [core_of_sessions hx, hnew] at hc
  cases hc
  rcases hstate with hstate | hstate <;> cases hstate

/-! ## Removing a session from the registry -/

theorem unregister_cases (sv : Server) (s : SessionId) :
    sv.usersBySession.lookup s = none ∧ sv.unregister s = { sv with
        activeConnections := sv.activeConnections - 1
        disconnected := s :: sv.disconnected } ∨
      ∃ userId, sv.usersBySession.lookup s = some userId ∧
        sv.unregister s = removeSession { sv with
          activeConnections := sv.activeConnections - 1
          disconnected := s :: sv.disconnected } s userId := by
  unfold unregister
  cases hlookup : sv.usersBySession.lookup s with
  | none => exact Or.inl ⟨rfl, by dsimp only; rw [hlookup]⟩
  | some userId => exact Or.inr ⟨userId, rfl, by dsimp only; rw [hlookup]⟩

theorem lookup_unregister (sv : Server) (s t : SessionId) :
    (sv.unregister s).usersBySession.lookup t =
      if t = s then none else sv.usersBySession.lookup t := by
  rcases unregister_cases sv s with ⟨hnone, e⟩ | ⟨userId, huser, e⟩
  · rw [e]
    split_ifs with ht
    · rw [ht]
      exact hnone
    · rfl
  · rw [e]
    exact UnorderedMap.lookup_erase_ite _ _ _

theorem sessionsByUser_unregister {userId : Str} (h : sv.usersBySession.lookup s = some userId) :
    (sv.unregister s).sessionsByUser = sv.sessionsByUser.erase userId := by
  rcases unregister_cases sv s with ⟨hnone, -⟩ | ⟨userId', huser, e⟩
  · rw [hnone] at h
    cases h
  · cases h.symm.trans huser
    rw [e]
    rfl

theorem registry_unregister (h : MutuallyInverse sv.sessionsByUser sv.usersBySession) :
    MutuallyInverse (sv.unregister s).sessionsByUser (sv.unregister s).usersBySession := by
  rcases unregister_cases sv s with ⟨hnone, e⟩ | ⟨userId, huser, e⟩
  · rw [e]
    exact h
  · rw [e]
    exact h.erase huser

theorem unregister_eq (sv : Server) (s : SessionId) :
    ∃ sessionsByUser usersBySession, sv.unregister s = { sv with
      sessionsByUser := sessionsByUser
      usersBySession := usersBySession
      activeConnections := sv.activeConnections - 1
      disconnected := s :: sv.disconnected } := by
  rcases unregister_cases sv s with ⟨-, e⟩ | ⟨userId, -, e⟩
  · exact ⟨_, _, e⟩
  · exact ⟨_, _, e⟩

theorem sessions_unregister (sv : Server) (s : SessionId) :
    (sv.unregister s).sessions = sv.sessions := by
  obtain ⟨_, _, e⟩ := unregister_eq sv s
  rw [e]

theorem core_unregister (sv : Server) (s t : SessionId) : (sv.unregister s).core t = sv.core t := by
  unfold core
  rw [sessions_unregister]

theorem activeConnections_unregister (sv : Server) (s : SessionId) :
    (sv.unregister s).activeConnections = sv.activeConnections - 1 := by
  obtain ⟨_, _, e⟩ := unregister_eq sv s
  rw [e]

theorem disconnected_unregister (sv : Server) (s : SessionId) :
    (sv.unregister s).disconnected = s :: sv.disconnected := by
  obtain ⟨_, _, e⟩ := unregister_eq sv s
  rw [e]

theorem db_unregister (sv : Server) (s : SessionId) : (sv.unregister s).db = sv.db := by
  obtain ⟨_, _, e⟩ := unregister_eq sv s
  rw [e]

/-- The registry afterwards holds less than before, and not the session. -/
theorem not_registered_unregister (h : MutuallyInverse sv.sessionsByUser sv.usersBySession)
    (ht : t = s ∨ ¬ sv.Registered t) : ¬ (sv.unregister s).Registered t := by
  rw [Server.registered_iff, UnorderedMap.mem_iff_lookup]
  simp only [registry_unregister h _ _, or_self, lookup_unregister]
  rintro ⟨userId, huser⟩
  split_ifs at huser with hts
  exact ht.resolve_left hts ((Server.registered_iff sv t).2
    (Or.inl (UnorderedMap.mem_iff_lookup.2 ⟨userId, huser⟩)))

/-! ## Steps of one session -/

theorem readNext_eq (c : SessionCore) :
    (readNext c).state = c.state ∧ (readNext c).userId = c.userId ∧
      (readNext c).authNonce = c.authNonce ∧ (readNext c).handshaking = c.handshaking ∧
      (readNext c).socketOpen = c.socketOpen := by
  unfold readNext
  split_ifs <;> exact ⟨rfl, rfl, rfl, rfl, rfl⟩

theorem SessionStep.userId (h : SessionStep codec s sv i c c') : c'.userId = c.userId := by
  cases h with
  | same | handshake | header | closed => rfl
  | frame => exact (readNext_eq _).2.1
  | hello => exact (readNext_eq _).2.1

theorem SessionStep.handshaking (h : SessionStep codec s sv i c c')
    (hc' : c'.handshaking = true) : c.handshaking = true := by
  cases h with
  | same | header | closed => exact hc'
  | handshake busy => exact busy
  | frame => exact (readNext_eq (stopReading c)).2.2.2.1.symm.trans hc'
  | hello nonce => exact (readNext_eq (challenged nonce (stopReading c))).2.2.2.1.symm.trans hc'

/-- An authenticated session stays authenticated or dies. -/
theorem SessionStep.settled (h : SessionStep codec s sv i c c')
    (hc : c.state = .established ∨ c.state = .dead) (idle : c.handshaking = false) :
    c'.state = .established ∨ c'.state = .dead := by
  cases h with
  | same | header => exact hc
  | handshake busy => rw [idle] at busy; cases busy
  | frame => rwa [(readNext_eq _).1]
  | hello nonce size reads accepted state =>
    rcases hc with hc | hc <;> rw [state] at hc <;> cases hc
  | closed => exact Or.inr rfl

/-! ## What each effect does to the invariant -/

/-- A session whose core stays, and whose record stays if it is not registered. -/
theorem WellFormed.fresh_of_core_eq (h : WellFormed sv) (hcore : sv'.core t = sv.core t)
    (huntouched : ¬ sv.Registered t → sv'.sessions[t]? = sv.sessions[t]?) {x' : Session}
    (hx' : sv'.sessions[t]? = some x') (busy : x'.handshaking = true) : x' = .new := by
  have hc := hcore.symm.trans (core_of_sessions hx')
  obtain ⟨x, hx, hxc⟩ := core_eq_some.1 hc
  have hbusy : x.handshaking = true := (congrArg SessionCore.handshaking hxc).trans busy
  have hnew := h.fresh t x hx hbusy
  have hsame := huntouched (h.not_registered hx hnew)
  rw [hx, hx'] at hsame
  exact (Option.some.inj hsame).trans hnew

theorem wellFormed_start (config : Config) (db : Database) : WellFormed (start config db) where
  registry := mutuallyInverse_empty
  registered _ _ h := by cases h
  fresh _ _ h := by cases h

theorem WellFormed.background (h : WellFormed sv) (quiet : Quiet False none sv sv') :
    WellFormed sv' where
  registry := by rw [quiet.sessionsByUser, quiet.usersBySession]; exact h.registry
  registered t userId huser := by
    rw [quiet.usersBySession] at huser
    rw [quiet.core]
    exact h.registered t userId huser
  fresh t _ hx' busy :=
    h.fresh_of_core_eq (quiet.core t) (quiet.untouched t (Option.some_ne_none t).symm) hx' busy

theorem WellFormed.session {clears : Prop} {x : Session} {g : SessionCore → SessionCore}
    (h : WellFormed sv) (found : sv.sessions[s]? = some x)
    (fresh : x = .new → (g x.core).handshaking = false)
    (step : SessionStep codec s sv i x.core (g x.core)) (moves : Moves clears s g sv sv') :
    WellFormed sv' where
  registry := by rw [moves.sessionsByUser, moves.usersBySession]; exact h.registry
  registered t userId huser := by
    rw [moves.usersBySession] at huser
    obtain ⟨c, hc, huser', hstate⟩ := h.registered t userId huser
    rw [moves.core]
    split_ifs with hst
    · subst hst
      cases (core_of_sessions found).symm.trans hc
      have idle : x.core.handshaking = false := by
        by_contra hbusy
        have hnew := h.fresh s x found (Bool.eq_true_of_not_eq_false hbusy)
        exact h.not_registered found hnew ((h.registered_iff).2 ⟨userId, huser⟩)
      exact ⟨g x.core, by rw [hc]; rfl, step.userId.trans huser', step.settled hstate idle⟩
    · exact ⟨c, hc, huser', hstate⟩
  fresh t x' hx' busy := by
    by_cases hst : s = t
    · subst hst
      have hc := moves.core s
      rw [if_pos rfl, core_of_sessions found, core_of_sessions hx'] at hc
      have hbusy : (g x.core).handshaking = true :=
        (congrArg SessionCore.handshaking (Option.some.inj hc)).symm.trans busy
      rw [fresh (h.fresh s x found (step.handshaking hbusy))] at hbusy
      cases hbusy
    · refine h.fresh_of_core_eq ?_ (moves.untouched t hst) hx' busy
      rw [moves.core, if_neg hst]

/-- A session that reads is past its handshake. -/
theorem WellFormed.idle_of_reading (h : WellFormed sv) {x : Session} {op : ReadOp}
    (found : sv.sessions[s]? = some x) (reads : x.reading = some op) : x.handshaking = false := by
  by_contra hbusy
  rw [h.fresh s x found (Bool.eq_true_of_not_eq_false hbusy)] at reads
  cases reads

/-- A session that was not authenticated is not registered. -/
theorem WellFormed.lookup_eq_none (h : WellFormed sv) {x : Session}
    (found : sv.sessions[s]? = some x) (hstate : x.state ≠ .established ∧ x.state ≠ .dead) :
    sv.usersBySession.lookup s = none := by
  by_contra hreg
  obtain ⟨userId, huser⟩ := Option.ne_none_iff_exists'.1 hreg
  obtain ⟨c, hc, -, hcstate⟩ := h.registered s userId huser
  cases (core_of_sessions found).symm.trans hc
  exact hcstate.elim hstate.1 hstate.2

/-- The core of a session after the frame with an accepted `AUTH_RESPONSE`. -/
theorem authenticated_eq (userId : Str) (c : SessionCore) :
    (readNext (authenticated userId (stopReading c))).state = .established ∧
      (readNext (authenticated userId (stopReading c))).userId = userId ∧
      (readNext (authenticated userId (stopReading c))).authNonce = c.authNonce ∧
      (readNext (authenticated userId (stopReading c))).handshaking = c.handshaking ∧
      (readNext (authenticated userId (stopReading c))).socketOpen = c.socketOpen :=
  readNext_eq _

theorem WellFormed.auth {x : Session} {auth : AuthResponse} {size : ℕ} (h : WellFormed sv)
    (found : sv.sessions[s]? = some x) (reads : x.reading = some (.payload size))
    (state : x.state = .authPending)
    (authenticates : Authenticates crypto s auth
      (readNext ∘ authenticated auth.userId ∘ stopReading) sv sv') : WellFormed sv' := by
  have hfree : sv.usersBySession.lookup s = none :=
    h.lookup_eq_none found ⟨by rw [state]; decide, by rw [state]; decide⟩
  exact
    { registry := by
        rw [authenticates.sessionsByUser, authenticates.usersBySession]
        exact h.registry.insert authenticates.free hfree
      registered := fun t userId huser => by
        rw [authenticates.usersBySession, UnorderedMap.lookup_insert_ite] at huser
        rw [authenticates.core]
        by_cases hst : s = t
        · subst hst
          rw [if_pos rfl] at huser ⊢
          cases huser
          rw [core_of_sessions found]
          obtain ⟨hstate, huser, -⟩ := authenticated_eq auth.userId x.core
          exact ⟨_, rfl, huser, Or.inl hstate⟩
        · rw [if_neg (Ne.symm hst)] at huser
          rw [if_neg hst]
          exact h.registered t userId huser
      fresh := fun t x' hx' busy => by
        by_cases hst : s = t
        · subst hst
          have hc := authenticates.core s
          rw [if_pos rfl, core_of_sessions found, core_of_sessions hx'] at hc
          have hbusy := (congrArg SessionCore.handshaking (Option.some.inj hc)).symm.trans busy
          have hidle := (authenticated_eq auth.userId x.core).2.2.2.1.trans
            (h.idle_of_reading found reads)
          rw [Function.comp_apply, Function.comp_apply, hidle] at hbusy
          cases hbusy
        · refine h.fresh_of_core_eq ?_ (authenticates.untouched t hst) hx' busy
          rw [authenticates.core, if_neg hst] }

/-- What a teardown leaves as it was. -/
theorem core_of_teardown {sv₁ : Server} {g : SessionCore → SessionCore}
    (moves : Moves False s g sv sv₁) (quiet : Quiet False none (sv₁.unregister s) sv')
    (t : SessionId) : sv'.core t = if s = t then (sv.core t).map g else sv.core t := by
  rw [quiet.core, core_unregister, moves.core]

/-- Nobody else writes to a session that is torn down, nor to one that was not registered. -/
theorem sessions_of_teardown {sv₁ : Server} {g : SessionCore → SessionCore} (h : WellFormed sv)
    (moves : Moves False s g sv sv₁) (quiet : Quiet False none (sv₁.unregister s) sv')
    (ht : t = s ∨ ¬ sv.Registered t) : sv'.sessions[t]? = sv₁.sessions[t]? := by
  have hregistry : MutuallyInverse sv₁.sessionsByUser sv₁.usersBySession := by
    rw [moves.sessionsByUser, moves.usersBySession]
    exact h.registry
  have hnot := not_registered_unregister hregistry
    (ht.imp id fun hreg hreg' => hreg ((moves.registered t).1 hreg'))
  rw [quiet.untouched t (Option.some_ne_none t).symm hnot, sessions_unregister]

theorem not_registered_of_teardown {sv₁ : Server} {g : SessionCore → SessionCore}
    (h : WellFormed sv) (moves : Moves False s g sv sv₁)
    (quiet : Quiet False none (sv₁.unregister s) sv') (ht : t = s ∨ ¬ sv.Registered t) :
    ¬ sv'.Registered t := by
  have hregistry : MutuallyInverse sv₁.sessionsByUser sv₁.usersBySession := by
    rw [moves.sessionsByUser, moves.usersBySession]
    exact h.registry
  rw [quiet.registered]
  exact not_registered_unregister hregistry
    (ht.imp id fun hreg hreg' => hreg ((moves.registered t).1 hreg'))

theorem WellFormed.teardown {x : Session} {sv₁ : Server} {g : SessionCore → SessionCore}
    (h : WellFormed sv) (found : sv.sessions[s]? = some x) (completes : Completes g)
    (fresh : x = .new → (g x.core).handshaking = false) (moves : Moves False s g sv sv₁)
    (quiet : Quiet False none (sv₁.unregister s) sv') : WellFormed sv' where
  registry := by
    rw [quiet.sessionsByUser, quiet.usersBySession]
    refine registry_unregister ?_
    rw [moves.sessionsByUser, moves.usersBySession]
    exact h.registry
  registered t userId huser := by
    rw [quiet.usersBySession, lookup_unregister, moves.usersBySession] at huser
    split_ifs at huser with hts
    rw [core_of_teardown moves quiet, if_neg (Ne.symm hts)]
    exact h.registered t userId huser
  fresh t x' hx' busy := by
    by_cases hst : s = t
    · subst hst
      have hc := core_of_teardown moves quiet s
      rw [if_pos rfl, core_of_sessions found, core_of_sessions hx'] at hc
      have hbusy : (g x.core).handshaking = true :=
        (congrArg SessionCore.handshaking (Option.some.inj hc)).symm.trans busy
      rw [fresh (h.fresh s x found (completes.handshaking x.core hbusy))] at hbusy
      cases hbusy
    · refine h.fresh_of_core_eq ?_ (fun hreg => ?_) hx' busy
      · rw [core_of_teardown moves quiet, if_neg hst]
      · rw [sessions_of_teardown h moves quiet (Or.inr hreg), moves.untouched t hst hreg]

/-- The session an accepted connection gets is the last one. -/
theorem sessions_of_accept (sessions : sv'.sessions = sv.sessions ++ [.new]) {x' : Session}
    (hx' : sv'.sessions[t]? = some x') :
    sv.sessions[t]? = some x' ∨ t = sv.sessions.length ∧ x' = .new := by
  rw [sessions, List.getElem?_append] at hx'
  split_ifs at hx' with ht
  · exact Or.inl hx'
  · obtain ⟨hlength, hnew⟩ := List.getElem?_eq_some_iff.1 hx'
    have hle : sv.sessions.length ≤ t := not_lt.1 ht
    have hlast := Nat.sub_eq_zero_iff_le.1 (Nat.lt_one_iff.1 hlength)
    refine Or.inr ⟨le_antisymm hlast hle, ?_⟩
    rw [← hnew, List.getElem_singleton]

/-- The sessions there were before an accepted connection. -/
theorem core_of_accept (sessions : sv'.sessions = sv.sessions ++ [.new]) (hc : sv.core t = some c) :
    sv'.core t = some c := by
  obtain ⟨x, hx, rfl⟩ := core_eq_some.1 hc
  refine core_of_sessions ?_
  rw [sessions, List.getElem?_append_left (List.getElem?_eq_some_iff.1 hx).1]
  exact hx

/-- A step keeps the users and their keys, unless the admin removes all users or a session
authenticates. -/
theorem keys_step (codec : Codec) (crypto : Crypto) (sv : Server) (i : Input) :
    UserStore.KeysKept (∃ s, sv.ActsAsAdmin s) sv.db (sv.step codec crypto i).db ∨
      ∃ s x auth, sv.sessions[s]? = some x ∧ receivedAuth codec s sv i = some auth ∧
        Presents crypto sv x.authNonce auth ∧
        Authenticates crypto s auth (readNext ∘ authenticated auth.userId ∘ stopReading) sv
          (sv.step codec crypto i) := by
  cases step_effect codec crypto sv i with
  | background quiet => exact Or.inl (quiet.keys.mono False.elim)
  | session s x g found alive fresh step moves =>
    exact Or.inl (moves.keys.mono fun hadmin => ⟨s, hadmin⟩)
  | auth s x auth found size reads state received presents authenticates =>
    exact Or.inr ⟨s, x, auth, found, received, presents, authenticates⟩
  | teardown s x sv₁ g found call alive completes fresh moves quiet =>
    have hquiet := quiet.keys
    rw [db_unregister] at hquiet
    exact Or.inl ((moves.keys.trans hquiet id).mono False.elim)
  | accept sessions sessionsByUser usersBySession below maxConnections activeConnections
      disconnected keys => exact Or.inl (keys.mono False.elim)
  | shutdown event first core untouched sessionsByUser usersBySession activeConnections
      disconnected keys => exact Or.inl (keys.mono False.elim)

/-- How the core of an accepted session changes in a step. -/
inductive CoreStep (codec : Codec) (s : SessionId) (sv : Server) (i : Input) (c : SessionCore) :
    SessionCore → Prop
  | session (c' : SessionCore) (step : SessionStep codec s sv i c c') : CoreStep codec s sv i c c'
  | auth (userId : Str) (state : c.state = .authPending) (reads : c.reading ≠ none) :
      CoreStep codec s sv i c (readNext (authenticated userId (stopReading c)))
  | completes (g : SessionCore → SessionCore) (completes : Completes g) :
      CoreStep codec s sv i c (g c)

theorem core_step (codec : Codec) (crypto : Crypto) (i : Input) (hc : sv.core t = some c) :
    ∃ c', (sv.step codec crypto i).core t = some c' ∧ CoreStep codec t sv i c c' := by
  have hsame {sv' : Server} (h : sv'.core t = sv.core t) :
      ∃ c', sv'.core t = some c' ∧ CoreStep codec t sv i c c' :=
    ⟨c, h.trans hc, .session c .same⟩
  cases step_effect codec crypto sv i with
  | background quiet => exact hsame (quiet.core t)
  | session s x g found alive fresh step moves =>
    by_cases hst : s = t
    · subst hst
      cases (core_of_sessions found).symm.trans hc
      exact ⟨g x.core, by rw [moves.core, if_pos rfl, hc]; rfl, .session _ step⟩
    · exact hsame (by rw [moves.core, if_neg hst])
  | auth s x auth found size reads state received presents authenticates =>
    by_cases hst : s = t
    · subst hst
      cases (core_of_sessions found).symm.trans hc
      have hreads : x.reading ≠ none := by
        rw [reads]
        exact Option.some_ne_none _
      exact ⟨_, by rw [authenticates.core, if_pos rfl, hc]; rfl, .auth auth.userId state hreads⟩
    · exact hsame (by rw [authenticates.core, if_neg hst])
  | teardown s x sv₁ g found call alive completes fresh moves quiet =>
    by_cases hst : s = t
    · subst hst
      exact ⟨g c, by rw [core_of_teardown moves quiet, if_pos rfl, hc]; rfl,
        .completes g completes⟩
    · exact hsame (by rw [core_of_teardown moves quiet, if_neg hst])
  | accept sessions => exact hsame ((core_of_accept sessions hc).trans hc.symm)
  | shutdown event first core => exact hsame (core t)

theorem CoreStep.settled (h : CoreStep codec s sv i c c')
    (hc : c.state = .established ∨ c.state = .dead) (idle : c.handshaking = false) :
    c'.userId = c.userId ∧ (c'.state = .established ∨ c'.state = .dead) := by
  cases h with
  | session c' step => exact ⟨step.userId, step.settled hc idle⟩
  | auth userId state reads => rcases hc with hc | hc <;> rw [state] at hc <;> cases hc
  | completes g completes =>
    exact ⟨completes.userId c, by rwa [completes.state c]⟩

/-- An authenticated session keeps its user. -/
theorem settled_step (codec : Codec) (crypto : Crypto) (i : Input) (h : WellFormed sv)
    (hc : sv.core t = some c) (hstate : c.state = .established ∨ c.state = .dead) :
    ∃ c', (sv.step codec crypto i).core t = some c' ∧ c'.userId = c.userId ∧
      (c'.state = .established ∨ c'.state = .dead) := by
  obtain ⟨x, hx, rfl⟩ := core_eq_some.1 hc
  obtain ⟨c', hc', hstep⟩ := core_step codec crypto i hc
  refine ⟨c', hc', hstep.settled hstate ?_⟩
  by_contra hbusy
  rw [h.fresh t x hx (Bool.eq_true_of_not_eq_false hbusy)] at hstate
  rcases hstate with hstate | hstate <;> cases hstate

/-! ## Sessions that are gone -/

/-- Nobody holds the session `t` any more, neither before nor after the step, and its record is as
it was. -/
theorem not_alive_of_untouched (hgone : ¬ sv.Alive t)
    (hsessions : sv'.sessions[t]? = sv.sessions[t]?) (hreg : ¬ sv'.Registered t) :
    ¬ sv'.Alive t ∧ sv'.sessions[t]? = sv.sessions[t]? := by
  refine ⟨?_, hsessions⟩
  rintro (⟨x, hx, hout⟩ | hreg')
  · exact hgone (Or.inl ⟨x, hsessions ▸ hx, hout⟩)
  · exact hreg hreg'

/-- A session that nobody holds stays as it is. -/
theorem not_alive_step (codec : Codec) (crypto : Crypto) (i : Input) (h : WellFormed sv)
    (hc : sv.core t = some c) (hgone : ¬ sv.Alive t) :
    ¬ (sv.step codec crypto i).Alive t ∧
      (sv.step codec crypto i).sessions[t]? = sv.sessions[t]? := by
  have hreg : ¬ sv.Registered t := fun hreg => hgone (Or.inr hreg)
  cases step_effect codec crypto sv i with
  | background quiet =>
    exact not_alive_of_untouched hgone (quiet.untouched t (Option.some_ne_none t).symm hreg)
      fun hreg' => hreg ((quiet.registered t).1 hreg')
  | session s x g found alive fresh step moves =>
    have hst : s ≠ t := by rintro rfl; exact hgone alive
    exact not_alive_of_untouched hgone (moves.untouched t hst hreg)
      fun hreg' => hreg ((moves.registered t).1 hreg')
  | auth s x auth found size reads state received presents authenticates =>
    have hst : s ≠ t := by
      rintro rfl
      refine hgone (alive_of_outstanding found (Or.inr (Or.inl ?_)))
      rw [reads]
      exact Option.some_ne_none _
    exact not_alive_of_untouched hgone (authenticates.untouched t hst hreg)
      (authenticates.not_registered hst hreg)
  | teardown s x sv₁ g found call alive completes fresh moves quiet =>
    have hst : s ≠ t := by rintro rfl; exact hgone alive
    refine not_alive_of_untouched hgone ?_ (not_registered_of_teardown h moves quiet (Or.inr hreg))
    rw [sessions_of_teardown h moves quiet (Or.inr hreg), moves.untouched t hst hreg]
  | accept sessions sessionsByUser usersBySession below maxConnections activeConnections
      disconnected keys =>
    obtain ⟨x, hx, -⟩ := core_eq_some.1 hc
    refine not_alive_of_untouched hgone ?_ fun hreg' => hreg ?_
    · rw [sessions, List.getElem?_append_left (List.getElem?_eq_some_iff.1 hx).1]
    · unfold Registered at hreg' ⊢
      rwa [sessionsByUser, usersBySession] at hreg'
  | shutdown event first core untouched sessionsByUser usersBySession activeConnections
      disconnected keys =>
    refine not_alive_of_untouched hgone (untouched t hreg) ?_
    rw [Server.registered_iff, sessionsByUser, usersBySession]
    rintro (hmem | ⟨userId, huser⟩)
    · exact absurd hmem (AList.notMem_empty _)
    · cases huser

/-! ## Every step keeps the invariant -/

theorem wellFormed_step (codec : Codec) (crypto : Crypto) (i : Input) (h : WellFormed sv) :
    WellFormed (sv.step codec crypto i) := by
  cases step_effect codec crypto sv i with
  | background quiet => exact h.background quiet
  | session s x g found alive fresh step moves => exact h.session found fresh step moves
  | auth s x auth found size reads state received presents authenticates =>
    exact h.auth found reads state authenticates
  | teardown s x sv₁ g found call alive completes fresh moves quiet =>
    exact h.teardown found completes fresh moves quiet
  | accept sessions sessionsByUser usersBySession below maxConnections activeConnections
      disconnected keys =>
    exact
      { registry := by rw [sessionsByUser, usersBySession]; exact h.registry
        registered := fun t userId huser => by
          rw [usersBySession] at huser
          obtain ⟨c, hc, hrest⟩ := h.registered t userId huser
          exact ⟨c, core_of_accept sessions hc, hrest⟩
        fresh := fun t x' hx' busy =>
          (sessions_of_accept sessions hx').elim (fun hx => h.fresh t x' hx busy) (·.2) }
  | shutdown event first core untouched sessionsByUser usersBySession activeConnections
      disconnected keys =>
    exact
      { registry := by rw [sessionsByUser, usersBySession]; exact mutuallyInverse_empty
        registered := fun t userId huser => by
          rw [usersBySession] at huser
          cases huser
        fresh := fun t x' hx' busy => h.fresh_of_core_eq (core t) (untouched t) hx' busy }

/-- The invariant holds in every state of every run. -/
theorem wellFormed_run (codec : Codec) (crypto : Crypto) (config : Config) (db : Database)
    (is : List Input) : AllStates (step codec crypto) WellFormed (start config db) is :=
  .of_invariant (wellFormed_start config db) (fun _ i h => wellFormed_step codec crypto i h) is

end Facts

end Server

end Ircord

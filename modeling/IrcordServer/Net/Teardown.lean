import IrcordServer.Net.Reports

/-!
# Sessions after their end

`on_session_disconnected` takes a session out of the registry; what it leaves of the session
depends on its caller.  A reported session that is dead, or that reads no more, acts for nobody
(`Silenced`), and a session is established and not registered only if a call left it so
(`reported_sessions_silent`).
-/

open Container Run

namespace Ircord

namespace Server

/-- `sv'` comes from `sv` by changes of the session `s` alone, and by messages to it.  Nothing was
stored, nothing was passed on, and the uploads of `s` are as they were. -/
structure OnlyOwn (s : SessionId) (sv sv' : Server) : Prop where
  others : ∀ t, s ≠ t → sv'.sessions[t]? = sv.sessions[t]?
  uploads : (sv'.sessions[s]?).map (·.activeUploads) = (sv.sessions[s]?).map (·.activeUploads)
  written : ∃ envs : List Envelope, sv'.written = sv.written ++ envs.map fun env => (s, env)
  rest : sv' = { sv with sessions := sv'.sessions, written := sv'.written }

section Definitions

variable (codec : Codec) (crypto : Crypto) (sv : Server) (i : Input)

/-- No envelope that is received on `s` from here on is acted on. -/
def Silenced (s : SessionId) : Prop :=
  ∀ i env, delivered codec s sv i = some env → OnlyOwn s sv (sv.step codec crypto i)

/-- An established session is the one registered for its user. -/
def EstablishedRegistered : Prop :=
  ∀ (s : SessionId) (x : Session), sv.sessions[s]? = some x → sv.Alive s →
    x.state = .established → sv.sessionsByUser.lookup x.userId = some s

/-- The call of `on_session_disconnected` in this step, if any, finds the session dead, or between
two reads that it does not go on with. -/
def StopsReading : Prop :=
  ∀ (s : SessionId) (sv₁ : Server) (x : Session), sv.teardown codec i = some (s, sv₁) →
    sv₁.sessions[s]? = some x → x.state = .dead ∨ x.reading = none

/-- The step takes an established session out of the registry only together with its last
operation: it does not call `on_session_disconnected` for one with another operation outstanding,
and it is not the shutdown while one is registered. -/
structure ReleasesEstablished : Prop where
  report : ∀ (s : SessionId) (sv₁ : Server) (x : Session), sv.teardown codec i = some (s, sv₁) →
    sv₁.sessions[s]? = some x → x.state = .established → ¬ x.Outstanding
  shutdown : i.event = .shutdown → sv.shuttingDown = false →
    ∀ (s : SessionId) (x : Session), sv.Registered s → sv.sessions[s]? = some x →
      x.state ≠ .established

end Definitions

section OnlyOwn

variable {codec : Codec} {crypto : Crypto} {d : Draws} {sv sv' sv'' : Server} {s : SessionId}
  {x : Session}

/-! ## What a dead session can still do -/

theorem OnlyOwn.refl (s : SessionId) (sv : Server) : OnlyOwn s sv sv :=
  ⟨fun _ _ => rfl, rfl, ⟨[], (List.append_nil _).symm⟩, rfl⟩

theorem OnlyOwn.trans (h : OnlyOwn s sv sv') (h' : OnlyOwn s sv' sv'') : OnlyOwn s sv sv'' where
  others t ht := (h'.others t ht).trans (h.others t ht)
  uploads := h'.uploads.trans h.uploads
  written := by
    obtain ⟨envs, e⟩ := h.written
    obtain ⟨envs', e'⟩ := h'.written
    exact ⟨envs ++ envs', by rw [e', e, List.append_assoc, List.map_append]⟩
  rest := by
    have hrest := h'.rest
    rw [h.rest] at hrest
    exact hrest

theorem onlyOwn_modify {f : Session → Session} (hf : ∀ x, (f x).activeUploads = x.activeUploads) :
    OnlyOwn s sv (sv.modify s f) where
  others t ht := by rw [sessions_modify, if_neg ht]
  uploads := by
    rw [sessions_modify, if_pos rfl, Option.map_map]
    exact congrArg (Option.map · _) (funext hf)
  written := ⟨[], (List.append_nil _).symm⟩
  rest := rfl

theorem onlyOwn_send (env : Envelope) : OnlyOwn s sv (sv.send s env) := by
  have hmodify : OnlyOwn s sv (sv.modify s fun x => { x with writes := x.writes + 1 }) :=
    onlyOwn_modify fun _ => rfl
  exact ⟨hmodify.others, hmodify.uploads, ⟨[env], rfl⟩, rfl⟩

theorem onlyOwn_sendError (code : UInt32) (message : String) :
    OnlyOwn s sv (sv.sendError codec d s code message) := by
  unfold sendError sendEnvelope
  split
  · exact .refl _ _
  · exact (@onlyOwn_modify sv s (fun x => { x with nextSeq := x.nextSeq + 1 }) fun _ => rfl).trans
      (onlyOwn_send _)

/-- A dead session is answered, and nothing else. -/
theorem onlyOwn_handleEnvelope (env : Envelope) (h : x.state = .dead) :
    OnlyOwn s sv (sv.handleEnvelope codec crypto d s x env) := by
  have hdead {state : SessionState} (hstate : state ≠ .dead) : x.state ≠ state := by
    rw [h]
    exact hstate.symm
  have hrefused {code : UInt32} {handled : Server} :
      OnlyOwn s sv (sv.ifAuthenticated codec d s x code handled) := by
    unfold ifAuthenticated
    rw [if_neg (hdead (by decide))]
    exact onlyOwn_sendError _ _
  unfold handleEnvelope
  split
  · rw [if_neg (hdead (by decide))]
    exact .refl _ _
  · rw [if_neg (hdead (by decide))]
    exact .refl _ _
  · rw [if_neg (hdead (by decide))]
    exact .refl _ _
  · exact onlyOwn_modify fun _ => rfl
  · exact hrefused
  · exact hrefused
  · rw [if_neg (hdead (by decide))]
    exact .refl _ _
  · rw [if_neg (hdead (by decide))]
    exact .refl _ _
  · exact hrefused
  · exact hrefused
  · exact hrefused
  · exact hrefused
  · exact hrefused
  · exact .refl _ _

/-- A frame of a dead session. -/
theorem onlyOwn_onPayload {data : Bytes} (h : x.state = .dead) :
    OnlyOwn s sv (sv.onPayload codec crypto d s x (some data)) := by
  have hstop : OnlyOwn s sv (sv.modify s fun x => { x with reading := none }) :=
    onlyOwn_modify fun _ => rfl
  have hnext (sv : Server) : OnlyOwn s sv (sv.doReadFrameHeader s) := by
    refine onlyOwn_modify fun x => ?_
    split_ifs <;> rfl
  unfold onPayload onFrameReceived
  dsimp only
  refine OnlyOwn.trans ?_ (hnext _)
  refine hstop.trans ?_
  split
  · exact onlyOwn_sendError _ _
  · exact onlyOwn_handleEnvelope _ h

end OnlyOwn

section Proofs

variable {codec : Codec} {crypto : Crypto} {sv : Server} {i : Input} {s t : SessionId}
  {c c' : SessionCore}

/-! ## Reported sessions that no longer read -/

/-- The session is dead, or it is between two reads that it does not go on with. -/
def Halted (c : SessionCore) : Prop :=
  c.state = .dead ∨ c.handshaking = false ∧ c.reading = none

theorem CoreStep.halted (h : CoreStep codec s sv i c c') (hc : Halted c)
    (fresh : c.handshaking = true → c = Session.new.core) : Halted c' := by
  have hidle : c.handshaking = false := by
    by_contra hbusy
    rw [fresh (Bool.eq_true_of_not_eq_false hbusy)] at hc
    rcases hc with hdead | ⟨hdone, -⟩
    · cases hdead
    · cases hdone
  have hreads {op : ReadOp} (reads : c.reading = some op) : c.state = .dead := by
    refine hc.resolve_right fun hread => ?_
    rw [reads] at hread
    cases hread.2
  cases h with
  | session c' step =>
    cases step with
    | same => exact hc
    | handshake busy => rw [hidle] at busy; cases busy
    | header size reads => exact Or.inl (hreads reads)
    | frame size reads =>
      exact Or.inl ((readNext_eq (stopReading c)).1.trans (hreads reads))
    | hello nonce size reads accepted state =>
      rw [hreads reads] at state
      cases state
    | closed => exact Or.inl rfl
  | auth userId state reads =>
    obtain ⟨op, hop⟩ := Option.ne_none_iff_exists'.1 reads
    rw [hreads hop] at state
    cases state
  | completes g completes =>
    rcases hc with hdead | ⟨-, hread⟩
    · exact Or.inl ((completes.state c).trans hdead)
    · refine Or.inr ⟨?_, completes.reading c hread⟩
      by_contra hbusy
      have := completes.handshaking c (Bool.eq_true_of_not_eq_false hbusy)
      exact Bool.false_ne_true (hidle.symm.trans this)

/-- Every reported session is halted. -/
structure ReportsHalted (sv : Server) : Prop where
  wellFormed : WellFormed sv
  halted : ∀ s ∈ sv.disconnected, ∃ c, sv.core s = some c ∧ Halted c

theorem reportsHalted_step (codec : Codec) (crypto : Crypto) (i : Input) (h : ReportsHalted sv)
    (hstops : sv.StopsReading codec i) : ReportsHalted (sv.step codec crypto i) where
  wellFormed := wellFormed_step codec crypto i h.wellFormed
  halted t ht := by
    rcases mem_disconnected_step codec crypto i ht with hbefore | ⟨sv₁, call⟩
    · obtain ⟨c, hc, hhalted⟩ := h.halted t hbefore
      obtain ⟨c', hc', hstep⟩ := core_step codec crypto i hc
      refine ⟨c', hc', hstep.halted hhalted fun busy => ?_⟩
      obtain ⟨x, hx, rfl⟩ := core_eq_some.1 hc
      rw [h.wellFormed.fresh t x hx busy]
    · obtain ⟨x, hx, found, hidle, -⟩ := reported_of_teardown crypto h.wellFormed call
      refine ⟨x.core, core_of_sessions found, ?_⟩
      exact (hstops t sv₁ x call hx).imp id fun hread => ⟨hidle, hread⟩

/-- A halted session gets no envelope through that is acted on. -/
theorem silenced_of_halted (codec : Codec) (crypto : Crypto) (hc : sv.core s = some c)
    (hhalted : Halted c) : sv.Silenced codec crypto s := by
  rintro ⟨d, event⟩ env hdelivered
  unfold delivered at hdelivered
  split at hdelivered
  · rename_i t data hevent
    split_ifs at hdelivered with henabled
    obtain ⟨rfl, henabled⟩ := henabled
    have hevent : event = .payloadRead t (some data) := hevent
    subst hevent
    obtain ⟨x, found, hread⟩ := found_of_any henabled
    obtain ⟨size, reads⟩ := reads_of_readsPayload hread
    cases hc.symm.trans (core_of_sessions found)
    have hdead : x.state = .dead := by
      refine hhalted.resolve_right fun hidle => ?_
      rw [show x.core.reading = some (.payload size) from reads] at hidle
      cases hidle.2
    unfold step perform
    rw [if_pos henabled]
    simp only [found]
    exact onlyOwn_onPayload hdead
  · cases hdelivered

theorem reportsHalted_start (config : Config) (db : Database) : ReportsHalted (start config db) :=
  ⟨wellFormed_start config db, fun _ h => absurd h List.not_mem_nil⟩

theorem ReportsHalted.silenced (codec : Codec) (crypto : Crypto) (h : ReportsHalted sv) :
    ∀ s ∈ sv.disconnected, sv.Silenced codec crypto s := by
  intro s hs
  obtain ⟨c, hc, hhalted⟩ := h.halted s hs
  exact silenced_of_halted codec crypto hc hhalted

/-! ## Established sessions -/

theorem SessionStep.of_established (h : SessionStep codec s sv i c c')
    (hstate : c'.state = .established) : c.state = .established := by
  cases h with
  | same | header => exact hstate
  | handshake | closed => cases hstate
  | frame => exact (readNext_eq (stopReading c)).1.symm.trans hstate
  | hello nonce =>
    rw [(readNext_eq (challenged nonce (stopReading c))).1] at hstate
    cases hstate

/-- A session that is established after a step was established for the same user before, or is
registered for its user in this step. -/
theorem established_step (codec : Codec) (crypto : Crypto) (i : Input)
    (hc' : (sv.step codec crypto i).core t = some c') (hstate : c'.state = .established) :
    (∃ c, sv.core t = some c ∧ c.state = .established ∧ c.userId = c'.userId) ∨
      (sv.step codec crypto i).usersBySession.lookup t = some c'.userId := by
  cases step_effect codec crypto sv i with
  | background quiet => exact Or.inl ⟨c', (quiet.core t).symm.trans hc', hstate, rfl⟩
  | session s x g found alive fresh step moves =>
    rw [moves.core] at hc'
    split_ifs at hc' with hst
    · subst hst
      rw [core_of_sessions found] at hc'
      cases hc'
      exact Or.inl ⟨x.core, core_of_sessions found, step.of_established hstate,
        step.userId.symm⟩
    · exact Or.inl ⟨c', hc', hstate, rfl⟩
  | auth s x auth found size reads state received presents authenticates =>
    rw [authenticates.core] at hc'
    split_ifs at hc' with hst
    · subst hst
      rw [core_of_sessions found] at hc'
      cases hc'
      right
      rw [authenticates.usersBySession, UnorderedMap.lookup_insert_ite, if_pos rfl]
      exact congrArg some (authenticated_eq auth.userId x.core).2.1.symm
    · exact Or.inl ⟨c', hc', hstate, rfl⟩
  | teardown s x sv₁ g found call alive completes fresh moves quiet =>
    rw [core_of_teardown moves quiet] at hc'
    split_ifs at hc' with hst
    · subst hst
      rw [core_of_sessions found] at hc'
      cases hc'
      exact Or.inl ⟨x.core, core_of_sessions found, (completes.state x.core).symm.trans hstate,
        (completes.userId x.core).symm⟩
    · exact Or.inl ⟨c', hc', hstate, rfl⟩
  | accept sessions =>
    obtain ⟨x', hx', rfl⟩ := core_eq_some.1 hc'
    rcases sessions_of_accept sessions hx' with hx | ⟨-, rfl⟩
    · exact Or.inl ⟨x'.core, core_of_sessions hx, hstate, rfl⟩
    · cases hstate
  | shutdown event first core => exact Or.inl ⟨c', (core t).symm.trans hc', hstate, rfl⟩

/-- A session leaves the registry by a call of `on_session_disconnected` for it, or at the
shutdown. -/
theorem registered_step (codec : Codec) (crypto : Crypto) (i : Input) (h : WellFormed sv)
    {userId : Str} (hreg : sv.usersBySession.lookup t = some userId) :
    (sv.step codec crypto i).usersBySession.lookup t = some userId ∨
      (∃ sv₁, sv.teardown codec i = some (t, sv₁)) ∨
      i.event = .shutdown ∧ sv.shuttingDown = false := by
  cases step_effect codec crypto sv i with
  | background quiet => exact Or.inl (by rw [quiet.usersBySession]; exact hreg)
  | session s x g found alive fresh step moves =>
    exact Or.inl (by rw [moves.usersBySession]; exact hreg)
  | auth s x auth found size reads state received presents authenticates =>
    left
    rw [authenticates.usersBySession, UnorderedMap.lookup_insert_ite, if_neg]
    · exact hreg
    · rintro rfl
      rw [h.lookup_eq_none found ⟨by rw [state]; decide, by rw [state]; decide⟩] at hreg
      cases hreg
  | teardown s x sv₁ g found call alive completes fresh moves quiet =>
    by_cases hts : t = s
    · exact Or.inr (Or.inl ⟨sv₁, hts ▸ call⟩)
    · left
      rw [quiet.usersBySession, lookup_unregister, if_neg hts, moves.usersBySession]
      exact hreg
  | accept sessions sessionsByUser usersBySession =>
    exact Or.inl (by rw [usersBySession]; exact hreg)
  | shutdown event first => exact Or.inr (Or.inr ⟨event, first⟩)

/-- The registry has the established sessions of the invariant also by session. -/
theorem EstablishedRegistered.lookup (h : EstablishedRegistered sv) (hw : WellFormed sv)
    (hc : sv.core t = some c) (halive : sv.Alive t) (hstate : c.state = .established) :
    sv.usersBySession.lookup t = some c.userId := by
  obtain ⟨x, hx, rfl⟩ := core_eq_some.1 hc
  exact (hw.registry x.userId t).1 (h t x hx halive hstate)

theorem establishedRegistered_of_releases (codec : Codec) (crypto : Crypto) (i : Input)
    (hw : WellFormed sv) (h : EstablishedRegistered sv)
    (hreleases : ReleasesEstablished codec sv i) :
    EstablishedRegistered (sv.step codec crypto i) := by
  intro t x' hx' halive' hstate'
  refine ((wellFormed_step codec crypto i hw).registry x'.userId t).2 ?_
  rcases established_step codec crypto i (core_of_sessions hx') hstate' with
    ⟨c, hc, hstate, huser⟩ | hreg
  · have halive : sv.Alive t := by
      by_contra hgone
      exact (not_alive_step codec crypto i hw hc hgone).1 halive'
    have hlookup := h.lookup hw hc halive hstate
    rw [huser] at hlookup
    rcases registered_step codec crypto i hw hlookup with hreg | ⟨sv₁, call⟩ | ⟨hevent, hfirst⟩
    · exact hreg
    · obtain ⟨x, hx, found, -, hnot⟩ := reported_of_teardown crypto hw call
      cases found.symm.trans hx'
      obtain ⟨y, hy, hout⟩ := halive'.resolve_right hnot
      cases found.symm.trans hy
      exact absurd hout (hreleases.report t sv₁ _ call hx hstate')
    · obtain ⟨x, hx, rfl⟩ := core_eq_some.1 hc
      have hreg := hw.registered_iff.2 ⟨_, hlookup⟩
      exact absurd hstate (hreleases.shutdown hevent hfirst t x hreg hx)
  · exact hreg

/-- Sessions that were asked to close have the posted function outstanding. -/
theorem sessions_disconnect_foldl {ts : List SessionId} {sv : Server} {x : Session}
    (found : sv.sessions[s]? = some x) :
    ∃ x', (ts.foldl (fun sv t => sv.disconnect t) sv).sessions[s]? = some x' ∧
      x'.core = x.core ∧ (s ∈ ts ∨ 0 < x.disconnects → 0 < x'.disconnects) := by
  induction ts generalizing sv x with
  | nil => exact ⟨x, found, rfl, fun h => h.resolve_left List.not_mem_nil⟩
  | cons t ts ih =>
    have hsessions := sessions_modify sv t s fun x => { x with disconnects := x.disconnects + 1 }
    rw [found] at hsessions
    by_cases hts : t = s
    · rw [if_pos hts] at hsessions
      obtain ⟨x', hx', hcore, hout⟩ := ih hsessions
      exact ⟨x', hx', hcore, fun _ => hout (Or.inr (Nat.succ_pos _))⟩
    · rw [if_neg hts] at hsessions
      obtain ⟨x', hx', hcore, hout⟩ := ih hsessions
      refine ⟨x', hx', hcore, fun h => hout (h.imp_left fun hmem => ?_)⟩
      exact (List.mem_cons.1 hmem).resolve_left (Ne.symm hts)

/-- The shutdown forgets the registered sessions and posts the end of each. -/
theorem onShutdown_registered {x : Session} (hw : WellFormed sv) (hfirst : sv.shuttingDown = false)
    (hreg : sv.Registered s) (found : sv.sessions[s]? = some x) :
    ∃ x', sv.onShutdown.sessions[s]? = some x' ∧ x'.core = x.core ∧ x'.Outstanding ∧
      sv.onShutdown.sessionsByUser = ∅ := by
  obtain ⟨userId, huser⟩ := hw.registered_iff.1 hreg
  have hmem : s ∈ sv.usersBySession.keys :=
    AList.mem_keys.1 (UnorderedMap.mem_iff_lookup.2 ⟨userId, huser⟩)
  obtain ⟨x', hx', hcore, hout⟩ := @sessions_disconnect_foldl s sv.usersBySession.keys
    { sv with shuttingDown := true, accepting := false } x found
  unfold onShutdown
  rw [if_neg (by rw [hfirst]; exact Bool.false_ne_true)]
  exact ⟨x', hx', hcore, Or.inr (Or.inr (Or.inr (hout (Or.inl hmem)))), rfl⟩

theorem releases_of_establishedRegistered (codec : Codec) (crypto : Crypto) (i : Input)
    (hw : WellFormed sv) (h : EstablishedRegistered (sv.step codec crypto i)) :
    ReleasesEstablished codec sv i where
  report s sv₁ x call hx hstate hout := by
    obtain ⟨y, hy, found, -, hnot⟩ := reported_of_teardown crypto hw call
    cases hx.symm.trans hy
    have hlookup := h s x found (alive_of_outstanding found hout) hstate
    exact hnot (registered_of_findSession _ s hlookup)
  shutdown hevent hfirst s x hreg found hstate := by
    obtain ⟨x', hx', hcore, hout, hempty⟩ := onShutdown_registered hw hfirst hreg found
    have hstep : sv.step codec crypto i = sv.onShutdown := by
      unfold step
      rw [hevent]
      rfl
    rw [hstep] at h
    have hstate' : x'.state = .established := (congrArg SessionCore.state hcore).trans hstate
    have hlookup := h s x' hx' (alive_of_outstanding hx' hout) hstate'
    rw [hempty] at hlookup
    cases hlookup

/-! ## Runs -/

/-- Two established sessions of one user are the same. -/
theorem EstablishedRegistered.unique (h : EstablishedRegistered sv) {x y : Session}
    (hx : sv.sessions[s]? = some x) (hy : sv.sessions[t]? = some y) (hxalive : sv.Alive s)
    (hyalive : sv.Alive t) (hxstate : x.state = .established) (hystate : y.state = .established)
    (huser : x.userId = y.userId) : s = t := by
  have hs := h s x hx hxalive hxstate
  have ht := h t y hy hyalive hystate
  rw [huser] at hs
  exact Option.some.inj (hs.symm.trans ht)

theorem establishedRegistered_start (config : Config) (db : Database) :
    EstablishedRegistered (start config db) :=
  fun _ _ hx => by cases hx

/-- The established sessions stay the registered ones in exactly the runs whose steps release
established sessions properly. -/
theorem allStates_establishedRegistered_iff (codec : Codec) (crypto : Crypto) (config : Config)
    (db : Database) (is : List Input) :
    AllStates (step codec crypto) EstablishedRegistered (start config db) is ↔
      AllSteps (step codec crypto) (ReleasesEstablished codec) (start config db) is := by
  refine allStates_iff_of_invariant (wellFormed_start config db)
    (fun _ i h => wellFormed_step codec crypto i h) (establishedRegistered_start config db) ?_
  intro sv i hw h
  constructor
  · exact releases_of_establishedRegistered codec crypto i hw
  · exact establishedRegistered_of_releases codec crypto i hw h

/-- A session that was reported to `on_session_disconnected` acts for nobody any more, if every
report finds the session dead or no longer reading.  Every established session is the registered
one of its user, hence the only one, in exactly those runs that take no established session with an
outstanding operation out of the registry. -/
theorem reported_sessions_silent (codec : Codec) (crypto : Crypto) (config : Config) (db : Database)
    (is : List Input) :
    (AllSteps (step codec crypto) (StopsReading codec) (start config db) is →
      AllStates (step codec crypto) (fun sv => ∀ s ∈ sv.disconnected, sv.Silenced codec crypto s)
        (start config db) is) ∧
    (AllStates (step codec crypto)
        (fun sv => sv.EstablishedRegistered ∧
          ∀ (s t : SessionId) (x y : Session), sv.sessions[s]? = some x →
            sv.sessions[t]? = some y → sv.Alive s → sv.Alive t → x.state = .established →
            y.state = .established → x.userId = y.userId → s = t)
        (start config db) is ↔
      AllSteps (step codec crypto) (ReleasesEstablished codec) (start config db) is) := by
  constructor
  · intro hstops
    have hhalted : AllStates (step codec crypto) ReportsHalted (start config db) is :=
      .of_steps (reportsHalted_start config db) (fun _ i h => reportsHalted_step codec crypto i h)
        hstops
    exact hhalted.mono fun _ h => h.silenced codec crypto
  · rw [← allStates_establishedRegistered_iff codec crypto]
    refine ⟨fun h => h.mono fun _ => (·.1), fun h => h.mono fun sv hreg => ⟨hreg, ?_⟩⟩
    intro s t x y hx hy hxalive hyalive hxstate hystate huser
    exact hreg.unique hx hy hxalive hyalive hxstate hystate huser

/-! ## A session that is heard after its ping timeout -/

/-- The signature of `alice` for a challenge of zeros. -/
def aliceSignature : Bytes :=
  [140, 32, 197, 215, 85, 210, 103, 146, 157, 67, 222, 174, 165, 244, 36, 217, 143, 107, 174, 251,
    70, 114, 246, 52, 28, 175, 88, 80, 157, 226, 236, 35, 207, 101, 113, 64, 141, 23, 131, 148, 81,
    129, 208, 28, 192, 43, 154, 126, 221, 101, 198, 105, 169, 44, 2, 9, 30, 252, 126, 1, 252, 226,
    142, 12]

/-- `alice` logs in and does not answer a ping in time. -/
def pingTimeoutRun : List Input :=
  (loginEvents 0 (str "alice") aliceSignature ++ [Event.timerExpires 0, .timerFires 0 .interval,
    .timerExpires 0, .timerFires 0 .timeout]).map Event.atZero

/-- A `/join` of `alice`. -/
def joinFrame : Bytes :=
  Codec.proto3.envelope.serialize
    ⟨0, 0, .command, Codec.proto3.ircCommand.serialize ⟨str "join", [str "#a"]⟩⟩

/-- The header of the `/join` comes after the ping timeout. -/
def joinAfterTimeoutRun : List Input :=
  pingTimeoutRun ++ [(Event.headerRead 0 (some (.ofNat joinFrame.length))).atZero]

/-- The state in which `alice` can be heard again. -/
def afterTimeout : Server :=
  final (step .proto3 (loginCrypto (str "alice") aliceSignature))
    (start ⟨10, 10, 10, []⟩ .empty) joinAfterTimeoutRun

/-- After its ping timeout `alice` is still established, but not registered, and its `/join`
creates the channel. -/
theorem not_silenced_joinAfterTimeoutRun :
    ¬ AllStates (step .proto3 (loginCrypto (str "alice") aliceSignature))
        (fun sv => ∀ s ∈ sv.disconnected,
          sv.Silenced .proto3 (loginCrypto (str "alice") aliceSignature) s)
        (start ⟨10, 10, 10, []⟩ .empty) joinAfterTimeoutRun ∧
      ¬ AllStates (step .proto3 (loginCrypto (str "alice") aliceSignature)) EstablishedRegistered
        (start ⟨10, 10, 10, []⟩ .empty) joinAfterTimeoutRun := by
  constructor
  · intro hall
    have hreported : 0 ∈ afterTimeout.disconnected := by decide +kernel
    let join := (Event.payloadRead 0 (some joinFrame)).atZero
    have hdelivered : (delivered .proto3 0 afterTimeout join).isSome = true := by decide +kernel
    obtain ⟨env, henv⟩ := Option.isSome_iff_exists.1 hdelivered
    have hown : OnlyOwn 0 afterTimeout _ := hall.final 0 hreported join env henv
    have hchannels := congrArg (fun sv => sv.commands.channels.keys.length) hown.rest
    exact absurd hchannels (by decide +kernel)
  · intro hall
    obtain ⟨x, found, hx⟩ := @found_of_any afterTimeout 0
      (fun x => x.state == .established && x.userId == str "alice") (by decide +kernel)
    obtain ⟨hstate, huser⟩ := (Bool.and_eq_true _ _).mp hx
    have hlookup : afterTimeout.sessionsByUser.lookup x.userId = some 0 :=
      hall.final 0 x found (by decide +kernel) (beq_iff_eq.1 hstate)
    have hnobody : afterTimeout.sessionsByUser.lookup (str "alice") = none := by decide +kernel
    rw [beq_iff_eq.1 huser, hnobody] at hlookup
    cases hlookup

end Proofs

end Server

end Ircord

import IrcordServer.Net.Authentication

/-!
# The effect of one step

What a step can do to the sessions, the registry and the counters is said once, by the cases of
`Effect` (`step_effect`).  Everything that is proved about the runs of the server goes through it.
-/

open Container

namespace Ircord

namespace Server

/-! ## What a step delivers -/

section Delivery

variable (codec : Codec) (s : SessionId) (sv : Server) (i : Input)

/-- The envelope that the step delivers to `s`. -/
def delivered : Option Envelope :=
  match i.event with
  | .payloadRead t (some data) =>
    if t = s ∧ sv.enabled i.event = true then codec.envelope.parse data else none
  | _ => none

/-- The challenge drawn for a `HELLO` of `s` with the right protocol version, in state `Hello`. -/
def acceptedHello : Option Bytes :=
  match sv.core s, delivered codec s sv i with
  | some c, some env =>
    if c.state = .hello ∧ env.type = .hello then
      ((env.parsePayload codec.hello).filter fun hello =>
        hello.protocolVersion = Session.protocolVersion).map fun _ => i.draws.nonce.1
    else none
  | _, _ => none

/-- The `AUTH_RESPONSE` of `s` that the step passes to `handle_auth_response`. -/
def receivedAuth : Option AuthResponse :=
  match sv.core s, delivered codec s sv i with
  | some c, some env =>
    if c.state = .authPending ∧ env.type = .authResponse then env.parsePayload codec.authResponse
    else none
  | _, _ => none

end Delivery

/-! ## Calls of `on_session_disconnected` -/

section Teardown

variable (codec : Codec) (d : Draws) (sv : Server)

/-- The call of `on_session_disconnected` in the handler of an event: the session, and the server
that the call finds. -/
def teardownCall : Event → Option (SessionId × Server)
  | .handshakeDone s false => some (s, sv.modify s fun x => { x with handshaking := false })
  | .headerRead s none => some (s, sv.modify s fun x => { x with reading := none })
  | .headerRead s (some size) =>
    let sv := sv.modify s fun x => { x with reading := none }
    if size.toNat > Session.maxMessageSize then
      some (s, sv.sendError codec d s 4001 "Message too large")
    else if size = 0 then some (s, sv)
    else none
  | .payloadRead s none => some (s, sv.modify s fun x => { x with reading := none })
  | .writeDone s false => some (s, sv.modify s fun x => { x with writes := x.writes - 1 })
  | .timerFires s wait =>
    match sv.sessions[s]? with
    | none => none
    | some x =>
      if x.state = .established ∧ (wait = .timeout ∨ x.pingSent = true) then
        some (s, sv.modify s fun x => { x with expired := x.expired.erase wait })
      else none
  | _ => none

/-- The same for a step. -/
def teardown (i : Input) : Option (SessionId × Server) :=
  if sv.enabled i.event = true then sv.teardownCall codec i.draws i.event else none

end Teardown

/-! ## Steps of one session -/

/-- The core after a read has completed. -/
def stopReading (c : SessionCore) : SessionCore := { c with reading := none }

/-- The core after `do_read_frame_header`. -/
def readNext (c : SessionCore) : SessionCore :=
  if c.state = .dead then c else { c with reading := some .header }

/-- How a session steps by itself, authentication and teardown apart. -/
inductive SessionStep (codec : Codec) (s : SessionId) (sv : Server) (i : Input)
    (c : SessionCore) : SessionCore → Prop
  | same : SessionStep codec s sv i c c
  | handshake (busy : c.handshaking = true) : SessionStep codec s sv i c
      { c with state := .hello, handshaking := false, reading := some .header }
  | header (size : ℕ) (reads : c.reading = some .header) : SessionStep codec s sv i c
      { c with reading := some (.payload size) }
  | frame (size : ℕ) (reads : c.reading = some (.payload size)) :
      SessionStep codec s sv i c (readNext (stopReading c))
  | hello (nonce : Bytes) (size : ℕ) (reads : c.reading = some (.payload size))
      (accepted : acceptedHello codec s sv i = some nonce) (state : c.state = .hello) :
      SessionStep codec s sv i c (readNext (challenged nonce (stopReading c)))
  | closed : SessionStep codec s sv i c { c with state := .dead, socketOpen := false }

/-- What the end of an operation can change in a core. -/
structure Completes (g : SessionCore → SessionCore) : Prop where
  state : ∀ c, (g c).state = c.state
  userId : ∀ c, (g c).userId = c.userId
  authNonce : ∀ c, (g c).authNonce = c.authNonce
  socketOpen : ∀ c, (g c).socketOpen = c.socketOpen
  handshaking : ∀ c, (g c).handshaking = true → c.handshaking = true
  reading : ∀ c, c.reading = none → (g c).reading = none

/-- The session `s` is established for the admin. -/
def ActsAsAdmin (sv : Server) (s : SessionId) : Prop :=
  ∃ c, sv.core s = some c ∧ c.state = .established ∧ c.userId = CommandHandler.adminUser

/-- The possible effects of a step from `sv`. -/
inductive Effect (codec : Codec) (crypto : Crypto) (sv : Server) (i : Input) (sv' : Server) : Prop
  /-- Nothing, or something that no session does. -/
  | background (quiet : Quiet False none sv sv')
  | session (s : SessionId) (x : Session) (g : SessionCore → SessionCore)
      (found : sv.sessions[s]? = some x) (alive : sv.Alive s)
      (fresh : x = .new → (g x.core).handshaking = false)
      (step : SessionStep codec s sv i x.core (g x.core))
      (moves : Moves (sv.ActsAsAdmin s) s g sv sv')
  | auth (s : SessionId) (x : Session) (auth : AuthResponse) (found : sv.sessions[s]? = some x)
      (size : ℕ) (reads : x.reading = some (.payload size))
      (state : x.state = .authPending) (received : receivedAuth codec s sv i = some auth)
      (presents : Presents crypto sv x.authNonce auth)
      (authenticates : Authenticates crypto s auth
        (readNext ∘ authenticated auth.userId ∘ stopReading) sv sv')
  | teardown (s : SessionId) (x : Session) (sv₁ : Server) (g : SessionCore → SessionCore)
      (found : sv.sessions[s]? = some x) (call : sv.teardown codec i = some (s, sv₁))
      (alive : sv.Alive s)
      (completes : Completes g)
      (fresh : x = .new → (g x.core).handshaking = false)
      (moves : Moves False s g sv sv₁)
      (quiet : Quiet False none (sv₁.unregister s) sv')
  | accept (sessions : sv'.sessions = sv.sessions ++ [.new])
      (sessionsByUser : sv'.sessionsByUser = sv.sessionsByUser)
      (usersBySession : sv'.usersBySession = sv.usersBySession)
      (below : sv.activeConnections < sv.maxConnections)
      (maxConnections : sv'.maxConnections = sv.maxConnections)
      (activeConnections : sv'.activeConnections = sv.activeConnections + 1)
      (disconnected : sv'.disconnected = sv.disconnected)
      (keys : UserStore.KeysKept False sv.db sv'.db)
  | shutdown (event : i.event = .shutdown) (first : sv.shuttingDown = false)
      (core : ∀ t, sv'.core t = sv.core t)
      (untouched : ∀ t, ¬ sv.Registered t → sv'.sessions[t]? = sv.sessions[t]?)
      (sessionsByUser : sv'.sessionsByUser = ∅) (usersBySession : sv'.usersBySession = ∅)
      (activeConnections : sv'.activeConnections = sv.activeConnections)
      (disconnected : sv'.disconnected = sv.disconnected)
      (keys : UserStore.KeysKept False sv.db sv'.db)

/-! ## Every step has one of these effects -/

section Effects

variable {codec : Codec} {crypto : Crypto} {d : Draws} {sv sv' : Server} {s : SessionId}
  {x : Session}

theorem core_of_sessions (h : sv.sessions[s]? = some x) : sv.core s = some x.core := by
  unfold core
  rw [h, Option.map_some]

theorem alive_of_outstanding (h : sv.sessions[s]? = some x) (hx : x.Outstanding) : sv.Alive s :=
  Or.inl ⟨x, h, hx⟩

theorem quiet_unregister_onSessionDisconnected :
    Quiet False none (sv.unregister s) (sv.onSessionDisconnected codec d s) := by
  unfold onSessionDisconnected
  split
  · exact .refl _ _
  · dsimp only
    split_ifs
    · exact .refl _ _
    · exact (quiet_broadcastPresence _ _).trans (quiet_leaveVoiceRooms _)

theorem stopReading_moves :
    Moves False s stopReading sv (sv.modify s fun x => { x with reading := none }) :=
  moves_modify _ fun _ => rfl

theorem completes_id : Completes id :=
  ⟨fun _ => rfl, fun _ => rfl, fun _ => rfl, fun _ => rfl, fun _ h => h, fun _ h => h⟩

theorem completes_stopReading : Completes stopReading :=
  ⟨fun _ => rfl, fun _ => rfl, fun _ => rfl, fun _ => rfl, fun _ h => h, fun _ _ => rfl⟩

theorem doReadFrameHeader_moves {clears : Prop} :
    Moves clears s readNext sv (sv.doReadFrameHeader s) := by
  refine moves_modify _ fun x => ?_
  unfold readNext
  show (if x.state = .dead then x else _).core = if x.state = .dead then x.core else _
  split_ifs <;> rfl

/-- An envelope is handled quietly, or it is an accepted message of the authentication. -/
theorem handleEnvelope_cases {clears : Prop} (env : Envelope)
    (hclears : x.state = .established → x.userId = CommandHandler.adminUser → clears) :
    Quiet clears (some s) sv (sv.handleEnvelope codec crypto d s x env) ∨
      (∃ hello, env.type = .hello ∧ x.state = .hello ∧
        env.parsePayload codec.hello = some hello ∧
        hello.protocolVersion = Session.protocolVersion ∧
        Moves False s (challenged d.nonce) sv (sv.handleEnvelope codec crypto d s x env)) ∨
      ∃ auth, env.type = .authResponse ∧ x.state = .authPending ∧
        env.parsePayload codec.authResponse = some auth ∧ Presents crypto sv x.authNonce auth ∧
        Authenticates crypto s auth (authenticated auth.userId) sv
          (sv.handleEnvelope codec crypto d s x env) := by
  by_cases hhello : env.type = .hello
  · unfold handleEnvelope
    rw [hhello]
    dsimp only
    split_ifs with hstate
    · split
      · exact Or.inl (quiet_sendError_disconnect _ _)
      · rename_i hello hparse
        by_cases hversion : hello.protocolVersion = Session.protocolVersion
        · exact Or.inr (Or.inl ⟨hello, rfl, hstate, hparse, hversion,
            handleHello_accepted hversion⟩)
        · exact Or.inl ((handleHello_refused hversion).mono False.elim)
    · exact Or.inl (.refl _ _)
  · by_cases hauth : env.type = .authResponse
    · unfold handleEnvelope
      rw [hauth]
      dsimp only
      split_ifs with hstate
      · split
        · exact Or.inl (quiet_sendError_disconnect _ _)
        · rename_i auth hparse
          rcases @handleAuthResponse_cases codec crypto d sv s x auth with hquiet | ⟨h, h'⟩
          · exact Or.inl (hquiet.mono False.elim)
          · exact Or.inr (Or.inr ⟨auth, rfl, hstate, hparse, h, h'⟩)
      · exact Or.inl (.refl _ _)
    · exact Or.inl (quiet_handleEnvelope env hhello hauth hclears)

theorem Authenticates.not_registered {auth : AuthResponse} {g : SessionCore → SessionCore}
    (h : Authenticates crypto s auth g sv sv') {t : SessionId} (ht : s ≠ t)
    (hreg : ¬ sv.Registered t) : ¬ sv'.Registered t := by
  have hadd := @not_registered_addSession sv s auth.userId t ht hreg
  unfold Registered at hadd ⊢
  rwa [h.sessionsByUser, h.usersBySession]

/-- Authentication inside of a handler that does more to the session. -/
theorem Authenticates.comp {auth : AuthResponse} {sv₁ sv₂ : Server}
    {g g₁ g₂ : SessionCore → SessionCore} (h₁ : Moves False s g₁ sv sv₁) (hdb : sv₁.db = sv.db)
    (h : Authenticates crypto s auth g sv₁ sv₂) (h₂ : Moves False s g₂ sv₂ sv') :
    Authenticates crypto s auth (g₂ ∘ g ∘ g₁) sv sv' where
  core t := by
    rw [h₂.core, h.core, h₁.core]
    split_ifs
    · rw [Option.map_map, Option.map_map, Function.comp_assoc]
    · rfl
  untouched t ht hreg := by
    have hreg₁ : ¬ sv₁.Registered t := fun hreg₁ => hreg ((h₁.registered t).1 hreg₁)
    rw [h₂.untouched t ht (h.not_registered ht hreg₁), h.untouched t ht hreg₁,
      h₁.untouched t ht hreg]
  free := h₁.sessionsByUser ▸ h.free
  sessionsByUser := by rw [h₂.sessionsByUser, h.sessionsByUser, h₁.sessionsByUser]
  usersBySession := by rw [h₂.usersBySession, h.usersBySession, h₁.usersBySession]
  activeConnections := by rw [h₂.activeConnections, h.activeConnections, h₁.activeConnections]
  disconnected := by rw [h₂.disconnected, h.disconnected, h₁.disconnected]
  verified := (hdb ▸ h.verified).of_keys (UserStore.identityKey_of_keysKept h₂.keys)

/-! ## Handler by handler -/

theorem onAccept_effect {i : Input} (ip : Str) :
    Effect codec crypto sv i (sv.onAccept d ip) := by
  unfold onAccept
  dsimp only
  split_ifs with hmax hallowed
  · exact .background (.of_eq rfl rfl rfl rfl rfl rfl)
  · exact .background (.of_eq rfl rfl rfl rfl rfl rfl)
  · exact .accept rfl rfl rfl (not_le.1 hmax) rfl rfl rfl (UserStore.keysKept_of_users_eq rfl)

theorem quiet_cleanup :
    Quiet False none sv { sv with
      db := FileStore.cleanupExpired (OfflineStore.cleanupExpired sv.db d.nowUnix) d.nowUnix } :=
  .of_eq rfl rfl rfl rfl rfl rfl

/-- The first half of `shutdown`. -/
theorem quiet_disconnectAll :
    Quiet False none sv (sv.usersBySession.keys.foldl (fun sv s => sv.disconnect s)
      { sv with shuttingDown := true, accepting := false }) := by
  have hflags : Quiet False none sv { sv with shuttingDown := true, accepting := false } :=
    .of_eq rfl rfl rfl rfl rfl rfl
  refine hflags.trans (Quiet.foldl fun t ht sv' hsv' => quiet_disconnect (Or.inr ?_))
  exact (hsv'.registered t).2 (Or.inl (AList.mem_keys.2 ht))

theorem onShutdown_effect {i : Input} (hevent : i.event = .shutdown) :
    Effect codec crypto sv i sv.onShutdown := by
  unfold onShutdown
  split_ifs with hfirst
  · exact .background (.refl _ _)
  · have hquiet := @quiet_disconnectAll sv
    exact .shutdown hevent (Bool.eq_false_iff.2 hfirst) hquiet.core
      (fun t => hquiet.untouched t (Option.some_ne_none t).symm) rfl rfl
      hquiet.activeConnections hquiet.disconnected hquiet.keys

/-- A handler that ends in a call of `on_session_disconnected`. -/
theorem teardown_effect {i : Input} {sv₁ : Server} {g : SessionCore → SessionCore}
    (found : sv.sessions[s]? = some x) (call : sv.teardown codec i = some (s, sv₁))
    (alive : sv.Alive s) (moves : Moves False s g sv sv₁)
    (completes : Completes g)
    (fresh : x = .new → (g x.core).handshaking = false) :
    Effect codec crypto sv i (sv₁.onSessionDisconnected codec d s) :=
  .teardown s x sv₁ g found call alive completes fresh moves quiet_unregister_onSessionDisconnected

section Completions

variable {i : Input}

/-- The record of a session that meets the condition of an enabled event. -/
theorem found_of_any {p : Session → Bool} (h : sv.sessions[s]?.any p = true) :
    ∃ x, sv.sessions[s]? = some x ∧ p x = true :=
  (Option.any_eq_true _ _).1 h

theorem teardown_of_enabled {event : Event} (hevent : i.event = event)
    (henabled : sv.enabled event = true) :
    sv.teardown codec i = sv.teardownCall codec i.draws event := by
  unfold teardown
  rw [hevent, if_pos henabled]

theorem onHandshake_effect {ok : Bool} (hevent : i.event = .handshakeDone s ok)
    (henabled : sv.enabled (.handshakeDone s ok) = true) :
    Effect codec crypto sv i (sv.onHandshake codec i.draws s ok) := by
  have hcall := @teardown_of_enabled codec sv i _ hevent henabled
  obtain ⟨x, found, busy⟩ := found_of_any henabled
  unfold onHandshake
  cases ok with
  | true =>
    have hdone : Moves (sv.ActsAsAdmin s) s (fun c => { c with handshaking := false }) sv
        (sv.modify s fun x => { x with handshaking := false }) := moves_modify _ fun _ => rfl
    have hhello (sv₁ : Server) : Moves (sv.ActsAsAdmin s) s (fun c => { c with state := .hello })
        sv₁ (sv₁.modify s fun x => { x with state := .hello }) := moves_modify _ fun _ => rfl
    exact .session s x _ found (alive_of_outstanding found (Or.inl busy)) (fun _ => rfl)
      (.handshake busy) ((hdone.trans (hhello _)).trans doReadFrameHeader_moves)
  | false =>
    have hdone : Moves False s (fun c => { c with handshaking := false }) sv
        (sv.modify s fun x => { x with handshaking := false }) := moves_modify _ fun _ => rfl
    have hcompletes : Completes fun c => { c with handshaking := false } :=
      ⟨fun _ => rfl, fun _ => rfl, fun _ => rfl, fun _ => rfl,
        fun _ h => absurd h Bool.false_ne_true, fun _ h => h⟩
    exact teardown_effect found hcall (alive_of_outstanding found (Or.inl busy)) hdone hcompletes
      fun _ => rfl

theorem onHeader_effect {size : Option UInt32} (hevent : i.event = .headerRead s size)
    (henabled : sv.enabled (.headerRead s size) = true) :
    Effect codec crypto sv i (sv.onHeader codec i.draws s size) := by
  have hcall := @teardown_of_enabled codec sv i _ hevent henabled
  obtain ⟨x, found, hreading⟩ := found_of_any henabled
  have reads : x.reading = some .header := by simpa using hreading
  have alive : sv.Alive s :=
    alive_of_outstanding found (Or.inr (Or.inl (by rw [reads]; exact Option.some_ne_none _)))
  have notFresh : x ≠ .new := fun e => by rw [e] at reads; cases reads
  unfold onHeader
  unfold teardownCall at hcall
  cases size with
  | none =>
    exact teardown_effect found hcall alive stopReading_moves completes_stopReading
      fun e => absurd e notFresh
  | some size =>
    dsimp only at hcall ⊢
    split_ifs at hcall ⊢ with htoo hzero
    · exact teardown_effect found hcall alive
        (stopReading_moves.trans_quiet (quiet_sendError _ _)) completes_stopReading
        fun e => absurd e notFresh
    · exact teardown_effect found hcall alive stopReading_moves completes_stopReading
        (fun e => absurd e notFresh)
    · have hpayload (sv₁ : Server) : Moves (sv.ActsAsAdmin s) s
          (fun c => { c with reading := some (.payload size.toNat) }) sv₁
          (sv₁.modify s fun x => { x with reading := some (.payload size.toNat) }) :=
        moves_modify _ fun _ => rfl
      exact .session s x _ found alive (fun e => absurd e notFresh) (.header size.toNat reads)
        ((stopReading_moves.mono False.elim).trans (hpayload _))

theorem onWritten_effect {ok : Bool} (hevent : i.event = .writeDone s ok)
    (henabled : sv.enabled (.writeDone s ok) = true) :
    Effect codec crypto sv i (sv.onWritten codec i.draws s ok) := by
  have hcall := @teardown_of_enabled codec sv i _ hevent henabled
  obtain ⟨x, found, hwrites⟩ := found_of_any henabled
  have hpos : 0 < x.writes := of_decide_eq_true hwrites
  have alive : sv.Alive s := alive_of_outstanding found (Or.inr (Or.inr (Or.inl hpos)))
  have notFresh : x ≠ .new := fun e => by rw [e] at hpos; exact absurd hpos (Nat.lt_irrefl 0)
  have hquiet {clears : Prop} : Quiet clears (some s) sv
      (sv.modify s fun x => { x with writes := x.writes - 1 }) :=
    quiet_modify writable_self _ fun _ => rfl
  unfold onWritten
  cases ok with
  | true =>
    exact .session s x id found alive (fun e => absurd e notFresh) .same hquiet.moves
  | false =>
    exact teardown_effect found hcall alive hquiet.moves completes_id
      (fun e => absurd e notFresh)

theorem onDisconnect_effect (henabled : sv.enabled (.disconnectRuns s) = true) :
    Effect codec crypto sv i (sv.onDisconnect s) := by
  obtain ⟨x, found, hdisconnects⟩ := found_of_any henabled
  have hpos : 0 < x.disconnects := of_decide_eq_true hdisconnects
  have notFresh : x ≠ .new := fun e => by rw [e] at hpos; exact absurd hpos (Nat.lt_irrefl 0)
  exact .session s x (fun c => { c with state := .dead, socketOpen := false }) found
    (alive_of_outstanding found (Or.inr (Or.inr (Or.inr hpos)))) (fun e => absurd e notFresh)
    .closed (moves_modify _ fun _ => rfl)

theorem timerExpires_effect (henabled : sv.enabled (.timerExpires s) = true) :
    Effect codec crypto sv i (sv.modify s fun x =>
      { x with timer := none, expired := x.expired ++ x.timer.toList }) := by
  obtain ⟨halive, htimer⟩ := (Bool.and_eq_true _ _).mp henabled
  obtain ⟨x, found, hsome⟩ := found_of_any htimer
  have notFresh : x ≠ .new := fun e => by rw [e] at hsome; cases hsome
  refine .session s x id found (of_decide_eq_true halive) (fun e => absurd e notFresh) .same
    (Quiet.moves ?_)
  exact quiet_modify writable_self _ fun _ => rfl

theorem onTimer_effect {wait : TimerWait} (hevent : i.event = .timerFires s wait)
    (henabled : sv.enabled (.timerFires s wait) = true) :
    Effect codec crypto sv i (sv.perform codec crypto i.draws (.timerFires s wait)) := by
  have hcall := @teardown_of_enabled codec sv i _ hevent henabled
  obtain ⟨halive, hexpired⟩ := (Bool.and_eq_true _ _).mp henabled
  have alive : sv.Alive s := of_decide_eq_true halive
  obtain ⟨x, found, hmem⟩ := found_of_any hexpired
  have notFresh : x ≠ .new := fun e => by rw [e] at hmem; cases hmem
  have hquiet {clears : Prop} : Quiet clears (some s) sv
      (sv.modify s fun x => { x with expired := x.expired.erase wait }) :=
    quiet_modify writable_self _ fun _ => rfl
  unfold perform
  simp only [teardownCall, found] at hcall ⊢
  unfold onTimer
  dsimp only
  split
  · exact .session s x id found alive (fun e => absurd e notFresh) .same hquiet.moves
  · rename_i hstate
    have hestablished : x.state = .established := not_ne_iff.1 hstate
    cases wait with
    | timeout =>
      rw [if_pos ⟨hestablished, Or.inl rfl⟩] at hcall
      exact teardown_effect found hcall alive hquiet.moves completes_id
        (fun e => absurd e notFresh)
    | interval =>
      dsimp only
      split_ifs with hping
      · rw [if_pos ⟨hestablished, Or.inr hping⟩] at hcall
        exact teardown_effect found hcall alive hquiet.moves completes_id
          (fun e => absurd e notFresh)
      · refine .session s x id found alive (fun e => absurd e notFresh) .same (Quiet.moves ?_)
        refine Quiet.trans ?_ (quiet_send writable_self _)
        refine hquiet.trans ?_
        exact quiet_modify writable_self _ fun _ => rfl

theorem reads_of_readsPayload {data : Option Bytes} (h : ReadsPayload x data = true) :
    ∃ size, x.reading = some (.payload size) := by
  unfold ReadsPayload at h
  split at h
  · exact ⟨_, by assumption⟩
  · exact ⟨_, by assumption⟩
  · cases h

theorem delivered_of_enabled {data : Bytes} (hevent : i.event = .payloadRead s (some data))
    (henabled : sv.enabled (.payloadRead s (some data)) = true) :
    delivered codec s sv i = codec.envelope.parse data := by
  unfold delivered
  rw [hevent]
  exact if_pos ⟨rfl, henabled⟩

/-- A frame of `s`, between the end of one read and the start of the next. -/
theorem onFrame_effect {data : Bytes} {size : ℕ} (found : sv.sessions[s]? = some x)
    (reads : x.reading = some (.payload size))
    (hdelivered : delivered codec s sv i = codec.envelope.parse data) :
    Effect codec crypto sv i
      (((sv.modify s fun x => { x with reading := none }).onFrameReceived codec crypto i.draws s x
        data).doReadFrameHeader s) := by
  have alive : sv.Alive s :=
    alive_of_outstanding found (Or.inr (Or.inl (by rw [reads]; exact Option.some_ne_none _)))
  have notFresh : x ≠ .new := fun e => by rw [e] at reads; cases reads
  have hcore := core_of_sessions found
  have hquiet {sv₁ : Server} (h : Quiet (sv.ActsAsAdmin s) (some s)
      (sv.modify s fun x => { x with reading := none }) sv₁) :
      Effect codec crypto sv i (sv₁.doReadFrameHeader s) :=
    .session s x _ found alive (fun e => absurd e notFresh) (.frame size reads)
      (((stopReading_moves.mono False.elim).trans h.moves).trans doReadFrameHeader_moves)
  unfold onFrameReceived
  cases hparse : codec.envelope.parse data with
  | none => exact hquiet (quiet_sendError _ _)
  | some env =>
    rw [hparse] at hdelivered
    rcases @handleEnvelope_cases codec crypto i.draws
        (sv.modify s fun x => { x with reading := none }) s x (sv.ActsAsAdmin s) env
        (fun hstate hadmin => ⟨x.core, hcore, hstate, hadmin⟩) with
      h | ⟨hello, htype, hstate, hhello, hversion, hmoves⟩ |
        ⟨auth, htype, hstate, hauth, hpresents, hauthenticates⟩
    · exact hquiet h
    · have accepted : acceptedHello codec s sv i = some i.draws.nonce.1 := by
        unfold acceptedHello
        rw [hcore, hdelivered]
        dsimp only
        rw [if_pos ⟨hstate, htype⟩, hhello, Option.filter_some, if_pos (by simpa using hversion)]
        rfl
      exact .session s x _ found alive (fun e => absurd e notFresh)
        (.hello _ size reads accepted hstate)
        (((stopReading_moves.trans hmoves).trans doReadFrameHeader_moves).mono False.elim)
    · have received : receivedAuth codec s sv i = some auth := by
        unfold receivedAuth
        rw [hcore, hdelivered]
        dsimp only
        rw [if_pos ⟨hstate, htype⟩, hauth]
      have hpresents' : Presents crypto sv x.authNonce auth :=
        ⟨hpresents.userId, hpresents.available, hpresents.keyLength, hpresents.signatureLength,
          hpresents.verified⟩
      exact .auth s x auth found size reads hstate received hpresents'
        (hauthenticates.comp stopReading_moves rfl doReadFrameHeader_moves)

theorem onPayload_effect {data : Option Bytes} (hevent : i.event = .payloadRead s data)
    (henabled : sv.enabled (.payloadRead s data) = true) :
    Effect codec crypto sv i (sv.perform codec crypto i.draws (.payloadRead s data)) := by
  have hcall := @teardown_of_enabled codec sv i _ hevent henabled
  obtain ⟨x, found, hreads⟩ := found_of_any henabled
  obtain ⟨size, reads⟩ := reads_of_readsPayload hreads
  unfold perform
  simp only [found]
  unfold onPayload
  cases data with
  | none =>
    have notFresh : x ≠ .new := fun e => by rw [e] at reads; cases reads
    exact teardown_effect found hcall
      (alive_of_outstanding found (Or.inr (Or.inl (by rw [reads]; exact Option.some_ne_none _))))
      stopReading_moves completes_stopReading (fun e => absurd e notFresh)
  | some data => exact onFrame_effect found reads (delivered_of_enabled hevent henabled)

end Completions

/-- What a step can do. -/
theorem step_effect (codec : Codec) (crypto : Crypto) (sv : Server) (i : Input) :
    Effect codec crypto sv i (sv.step codec crypto i) := by
  unfold step
  split_ifs with henabled
  · cases hevent : i.event with
    | accept ip => exact onAccept_effect ip
    | acceptError => exact .background (.of_eq rfl rfl rfl rfl rfl rfl)
    | handshakeDone s ok => exact onHandshake_effect hevent (hevent ▸ henabled)
    | headerRead s size => exact onHeader_effect hevent (hevent ▸ henabled)
    | payloadRead s data => exact onPayload_effect hevent (hevent ▸ henabled)
    | writeDone s ok => exact onWritten_effect hevent (hevent ▸ henabled)
    | disconnectRuns s => exact onDisconnect_effect (hevent ▸ henabled)
    | timerExpires s => exact timerExpires_effect (hevent ▸ henabled)
    | timerFires s wait => exact onTimer_effect hevent (hevent ▸ henabled)
    | adminDisconnect userId =>
      refine .background ?_
      unfold perform
      dsimp only
      split_ifs
      · exact .refl _ _
      · split
        · exact .refl _ _
        · rename_i s hfound
          exact quiet_disconnect (Or.inr (registered_of_findSession sv s hfound))
    | setMaxConnections | setMsgRate | setMotd =>
      exact .background (.of_eq rfl rfl rfl rfl rfl rfl)
    | cleanup => exact .background quiet_cleanup
    | shutdown => exact onShutdown_effect hevent
  · exact .background (.refl _ _)

/-! ## Delivered envelopes -/

theorem delivered_eq_some {i : Input} {env : Envelope} (h : delivered codec s sv i = some env) :
    ∃ data, i.event = .payloadRead s (some data) ∧ sv.enabled i.event = true ∧
      codec.envelope.parse data = some env := by
  unfold delivered at h
  split at h
  · rename_i t data hevent
    split_ifs at h with hcond
    obtain ⟨rfl, henabled⟩ := hcond
    exact ⟨data, hevent, henabled, h⟩
  · cases h

/-- A delivered envelope is handled between two reads. -/
theorem step_of_delivered {i : Input} {env : Envelope} (h : delivered codec s sv i = some env) :
    ∃ x, sv.sessions[s]? = some x ∧ sv.step codec crypto i =
      ((sv.modify s fun x => { x with reading := none }).handleEnvelope codec crypto i.draws s x
        env).doReadFrameHeader s := by
  obtain ⟨data, hevent, henabled, hparse⟩ := delivered_eq_some h
  have henabled' := henabled
  rw [hevent] at henabled'
  obtain ⟨x, found, -⟩ := found_of_any henabled'
  refine ⟨x, found, ?_⟩
  unfold step
  rw [if_pos henabled, hevent]
  simp only [perform, found, onPayload, onFrameReceived, hparse]

end Effects

end Server

end Ircord

import IrcordServer.Net.Delivery
import IrcordServer.Net.NicknameCases
import IrcordServer.Net.Registry

/-!
# Sequence numbers

`Envelope.seq` is meant to count up.  `send_envelope` and the ping timer draw it from the counter of
the session; presence messages, voice room messages and command responses leave it at zero.  Before
a session is established it gets none of these, and a login writes presence messages at once.
-/

open Container Run

namespace Ircord

/-- The server made the envelope itself. -/
def Envelope.Originated (env : Envelope) : Prop :=
  env.type ≠ .chatEnvelope ∧ env.type ≠ .voiceSignal

instance (env : Envelope) : Decidable env.Originated := inferInstanceAs (Decidable (_ ∧ _))

namespace Server

/-- The `seq` of the envelopes that the server made for the session, in order. -/
def seqsTo (t : SessionId) (written : List (SessionId × Envelope)) : List ℕ :=
  (written.filter fun e => e.1 = t ∧ e.2.Originated).map fun e => e.2.seq

/-- Every session gets increasing sequence numbers. -/
def SeqsIncrease (sv : Server) : Prop := ∀ t, (seqsTo t sv.written).Pairwise (· < ·)

/-- The `AUTH_RESPONSE` passes the checks of `handle_auth_response`, and its user is registered or
verified. -/
def PassesAuth (crypto : Crypto) (d : Draws) (sv : Server) (x : Session) (auth : AuthResponse) :
    Prop :=
  Presents crypto sv x.authNonce auth ∧ ∃ db, registerOrVerify crypto d sv.db auth = .accept db

/-- In the step a client logs in. -/
def LogsIn (codec : Codec) (crypto : Crypto) (sv : Server) (i : Input) : Prop :=
  ∃ s x auth, sv.sessions[s]? = some x ∧ receivedAuth codec s sv i = some auth ∧
    PassesAuth crypto i.draws sv x auth

section Proofs

variable {codec : Codec} {crypto : Crypto} {d : Draws} {sv sv' : Server} {i : Input}
  {s t : SessionId} {x : Session} {userId : Str}

/-! ## Numbers from the counter -/

/-- The numbers increase, and every counter is ahead of what was written to its session. -/
structure Numbered (sv : Server) : Prop where
  increase : SeqsIncrease sv
  below : ∀ e ∈ sv.written, ∃ x, sv.sessions[e.1]? = some x ∧ e.2.seq < x.nextSeq

theorem seqsTo_append (t : SessionId) (sent sent' : List (SessionId × Envelope)) :
    seqsTo t (sent ++ sent') = seqsTo t sent ++ seqsTo t sent' := by
  unfold seqsTo
  rw [List.filter_append, List.map_append]

theorem mem_seqsTo {n : ℕ} {sent : List (SessionId × Envelope)} :
    n ∈ seqsTo t sent ↔ ∃ env, (t, env) ∈ sent ∧ env.Originated ∧ env.seq = n := by
  unfold seqsTo
  simp only [List.mem_map, List.mem_filter, decide_eq_true_eq]
  constructor
  · rintro ⟨⟨t', env⟩, ⟨hmem, rfl, horiginated⟩, rfl⟩
    exact ⟨env, hmem, horiginated, rfl⟩
  · rintro ⟨env, hmem, horiginated, rfl⟩
    exact ⟨(t, env), ⟨hmem, rfl, horiginated⟩, rfl⟩

theorem numbered_of_eq (h : Numbered sv) (sessions : sv'.sessions = sv.sessions)
    (written : sv'.written = sv.written) : Numbered sv' where
  increase t := by
    rw [written]
    exact h.increase t
  below e he := by
    rw [written] at he
    rw [sessions]
    exact h.below e he

theorem Numbered.modify (h : Numbered sv) (s : SessionId) (f : Session → Session)
    (hf : ∀ x, x.nextSeq ≤ (f x).nextSeq) : Numbered (sv.modify s f) where
  increase := h.increase
  below e he := by
    obtain ⟨x, found, hbelow⟩ := h.below e he
    rw [sessions_modify, found]
    split_ifs
    · exact ⟨f x, rfl, hbelow.trans_le (hf x)⟩
    · exact ⟨x, rfl, hbelow⟩

theorem Numbered.accept (h : Numbered sv) (sessions : sv'.sessions = sv.sessions ++ [.new])
    (written : sv'.written = sv.written) : Numbered sv' where
  increase t := by
    rw [written]
    exact h.increase t
  below e he := by
    rw [written] at he
    obtain ⟨x, found, hbelow⟩ := h.below e he
    refine ⟨x, ?_, hbelow⟩
    rw [sessions, List.getElem?_append_left (List.getElem?_eq_some_iff.1 found).1]
    exact found

/-- `send_envelope` takes the next number. -/
theorem Numbered.sendEnvelope (h : Numbered sv) (s : SessionId) (type : MessageType)
    (payload : Bytes) : Numbered (sv.sendEnvelope d s type payload) := by
  unfold Server.sendEnvelope
  cases found : sv.sessions[s]? with
  | none => exact h
  | some x =>
    have hkept : Numbered ((sv.modify s fun x => { x with nextSeq := x.nextSeq + 1 }).modify s
        fun x => { x with writes := x.writes + 1 }) :=
      (h.modify s _ fun _ => Nat.le_succ _).modify s _ fun _ => le_rfl
    have hnew : ((sv.modify s fun x => { x with nextSeq := x.nextSeq + 1 }).modify s
        fun x => { x with writes := x.writes + 1 }).sessions[s]? =
          some { x with nextSeq := x.nextSeq + 1, writes := x.writes + 1 } := by
      rw [sessions_modify, if_pos rfl, sessions_modify, if_pos rfl, found]
      rfl
    constructor
    · intro t
      show (seqsTo t (sv.written ++ [(s, ⟨x.nextSeq, d.nowMs, type, payload⟩)])).Pairwise _
      rw [seqsTo_append, List.pairwise_append]
      refine ⟨h.increase t, ?_, fun n hn m hm => ?_⟩
      · exact List.Pairwise.sublist
          (List.filter_sublist.map fun e : SessionId × Envelope => e.2.seq)
          (List.pairwise_singleton _ _)
      · obtain ⟨env, hmem, -, rfl⟩ := mem_seqsTo.1 hn
        obtain ⟨env', hmem', -, rfl⟩ := mem_seqsTo.1 hm
        cases List.mem_singleton.1 hmem'
        obtain ⟨y, hy, hbelow⟩ := h.below _ hmem
        cases found.symm.trans hy
        exact hbelow
    · intro e he
      rcases List.mem_append.1 he with he | he
      · exact hkept.below e he
      · cases List.mem_singleton.1 he
        exact ⟨_, hnew, Nat.lt_succ_self _⟩

theorem Numbered.disconnect (h : Numbered sv) (s : SessionId) : Numbered (sv.disconnect s) :=
  h.modify s _ fun _ => le_rfl

theorem Numbered.sendError (h : Numbered sv) (s : SessionId) (code : UInt32) (message : String) :
    Numbered (sv.sendError codec d s code message) :=
  h.sendEnvelope s _ _

theorem Numbered.sendError_disconnect (h : Numbered sv) (s : SessionId) (code : UInt32)
    (message : String) : Numbered ((sv.sendError codec d s code message).disconnect s) :=
  (h.sendError s code message).disconnect s

theorem Numbered.authFail (h : Numbered sv) (s : SessionId) (code : UInt32) (message : Str) :
    Numbered (sv.authFail codec d s code message) :=
  (h.sendEnvelope s _ _).disconnect s

theorem Numbered.handleHello (h : Numbered sv) (s : SessionId) (hello : Hello) :
    Numbered (sv.handleHello codec d s hello) := by
  unfold Server.handleHello
  split_ifs
  · exact h.sendError_disconnect s _ _
  · have hnonce : Numbered (sv.modify s fun x => { x with authNonce := d.nonce }) :=
      h.modify s _ fun _ => le_rfl
    exact (hnonce.sendEnvelope s _ _).modify s _ fun _ => le_rfl

theorem Numbered.handleAuthResponse {auth : AuthResponse} (h : Numbered sv)
    (hrefused : ¬ PassesAuth crypto d sv x auth) :
    Numbered (sv.handleAuthResponse codec crypto d s x auth) := by
  by_cases hpresents : Presents crypto sv x.authNonce auth
  · rw [handleAuthResponse_presented hpresents]
    rcases @registerOrVerify_cases crypto d sv.db auth hpresents.key_ne_nil with
      ⟨code, message, e⟩ | ⟨db, e, -⟩
    · rw [e]
      exact h.authFail s _ _
    · exact absurd ⟨hpresents, db, e⟩ hrefused
  · unfold Server.handleAuthResponse
    split_ifs with huser hfree hkey hsignature hverified
    · exact h.sendError_disconnect s _ _
    · exact h.authFail s _ _
    · exact h.sendError_disconnect s _ _
    · exact h.sendError_disconnect s _ _
    · exact h.authFail s _ _
    · refine absurd ⟨?_, ?_, not_ne_iff.1 hkey, not_ne_iff.1 hsignature, ?_⟩ hpresents
      · simpa using huser
      · simpa using hfree
      · simpa using hverified

/-! ## Sessions that are not established -/

/-- Nobody has logged in. -/
structure Unattended (sv : Server) : Prop where
  sessionsByUser : sv.sessionsByUser = ∅
  usersBySession : sv.usersBySession = ∅
  core : ∀ t c, sv.core t = some c → c.state ≠ .established

theorem Numbered.ifAuthenticated (h : Numbered sv) (hstate : x.state ≠ .established)
    (code : UInt32) (handled : Server) :
    Numbered (sv.ifAuthenticated codec d s x code handled) := by
  unfold Server.ifAuthenticated
  rw [if_neg hstate]
  exact h.sendError s _ _

/-- Before its session is established a client is answered by `send_envelope` only. -/
theorem Numbered.handleEnvelope {env : Envelope} (h : Numbered sv)
    (hstate : x.state ≠ .established)
    (hrefused : ∀ auth, x.state = .authPending → env.type = .authResponse →
      env.parsePayload codec.authResponse = some auth → ¬ PassesAuth crypto d sv x auth) :
    Numbered (sv.handleEnvelope codec crypto d s x env) := by
  unfold Server.handleEnvelope
  cases htype : env.type with
  | hello =>
    dsimp only
    split_ifs
    · split
      · exact h.sendError_disconnect s _ _
      · exact h.handleHello s _
    · exact h
  | authResponse =>
    dsimp only
    split_ifs with hpending
    · split
      · exact h.sendError_disconnect s _ _
      · rename_i auth hparse
        exact h.handleAuthResponse (hrefused auth hpending htype hparse)
    · exact h
  | ping | voiceRoomJoin | voiceRoomLeave =>
    dsimp only
    rw [if_neg hstate]
    exact h
  | pong => exact h.modify s _ fun _ => le_rfl
  | chatEnvelope | voiceSignal | keyUpload | keyRequest | command | fileUpload | fileDownload =>
    exact h.ifAuthenticated hstate _ _
  | authChallenge | authOk | authFail | keyBundle | presence | voiceRoomState | commandResponse
  | nickChange | fileChunk | fileProgress | fileComplete | fileError | motd | error | other =>
    exact h

theorem Numbered.doReadFrameHeader (h : Numbered sv) (s : SessionId) :
    Numbered (sv.doReadFrameHeader s) :=
  h.modify s _ fun x => by split_ifs <;> rfl

theorem Numbered.onSessionDisconnected (h : Numbered sv) (hnone : sv.usersBySession = ∅)
    (s : SessionId) : Numbered (sv.onSessionDisconnected codec d s) := by
  have hlookup : sv.usersBySession.lookup s = none := by
    rw [hnone]
    exact AList.lookup_empty s
  unfold Server.onSessionDisconnected
  rw [hlookup]
  exact numbered_of_eq h (sessions_unregister sv s) (written_unregister sv s)

/-- What the checks look at is the registry and the tables. -/
theorem PassesAuth.of_eq {auth : AuthResponse} (h : PassesAuth crypto d sv x auth)
    (sessionsByUser : sv'.sessionsByUser = sv.sessionsByUser) (db : sv'.db = sv.db) :
    PassesAuth crypto d sv' x auth := by
  obtain ⟨hpresents, hverdict⟩ := h
  refine ⟨⟨hpresents.userId, ?_, hpresents.keyLength, hpresents.signatureLength,
    hpresents.verified⟩, by rwa [db]⟩
  unfold isNicknameAvailable
  rw [sessionsByUser]
  exact hpresents.available

theorem receivedAuth_of_delivered {env : Envelope} {auth : AuthResponse}
    (found : sv.sessions[s]? = some x) (hdelivered : delivered codec s sv i = some env)
    (hstate : x.state = .authPending) (htype : env.type = .authResponse)
    (hparse : env.parsePayload codec.authResponse = some auth) :
    receivedAuth codec s sv i = some auth := by
  unfold receivedAuth
  rw [core_of_sessions found, hdelivered]
  dsimp only
  rw [if_pos ⟨hstate, htype⟩, hparse]

/-! ### Each event -/

theorem Numbered.onAccept (h : Numbered sv) (ip : Str) : Numbered (sv.onAccept d ip) := by
  unfold Server.onAccept
  dsimp only
  split_ifs
  · exact numbered_of_eq h rfl rfl
  · exact numbered_of_eq h rfl rfl
  · exact h.accept rfl rfl

theorem Numbered.onHandshake (h : Numbered sv) (hnone : sv.usersBySession = ∅) (s : SessionId)
    (ok : Bool) : Numbered (sv.onHandshake codec d s ok) := by
  have hdone : Numbered (sv.modify s fun x => { x with handshaking := false }) :=
    h.modify s _ fun _ => le_rfl
  cases ok with
  | true =>
    have hhello := hdone.modify s (fun x => { x with state := .hello }) fun _ => le_rfl
    exact hhello.doReadFrameHeader s
  | false => exact hdone.onSessionDisconnected hnone s

theorem Numbered.onHeader (h : Numbered sv) (hnone : sv.usersBySession = ∅) (s : SessionId)
    (size : Option UInt32) : Numbered (sv.onHeader codec d s size) := by
  have hdone : Numbered (sv.modify s fun x => { x with reading := none }) :=
    h.modify s _ fun _ => le_rfl
  cases size with
  | none => exact hdone.onSessionDisconnected hnone s
  | some size =>
    unfold Server.onHeader
    dsimp only
    split_ifs
    · refine (hdone.sendError s _ _).onSessionDisconnected ?_ s
      exact (@quiet_sendError False codec d _ s _ _).usersBySession.trans hnone
    · exact hdone.onSessionDisconnected hnone s
    · exact hdone.modify s _ fun _ => le_rfl

/-- A frame, when nobody logs in with it. -/
theorem Numbered.onPayload (h : Numbered sv) (hnobody : Unattended sv) {data : Option Bytes}
    (hevent : i.event = .payloadRead s data) (henabled : sv.enabled i.event = true)
    (found : sv.sessions[s]? = some x) (hlogin : ¬ LogsIn codec crypto sv i) :
    Numbered (sv.onPayload codec crypto i.draws s x data) := by
  have hdone : Numbered (sv.modify s fun x => { x with reading := none }) :=
    h.modify s _ fun _ => le_rfl
  cases data with
  | none => exact hdone.onSessionDisconnected hnobody.usersBySession s
  | some data =>
    refine Numbered.doReadFrameHeader ?_ s
    unfold onFrameReceived
    rw [hevent] at henabled
    cases hparse : codec.envelope.parse data with
    | none => exact hdone.sendError s _ _
    | some env =>
      have hdelivered : delivered codec s sv i = some env :=
        (delivered_of_enabled hevent henabled).trans hparse
      refine hdone.handleEnvelope (hnobody.core s _ (core_of_sessions found)) ?_
      intro auth hstate htype hauth haccepts
      exact hlogin ⟨s, x, auth, found,
        receivedAuth_of_delivered found hdelivered hstate htype hauth, haccepts.of_eq rfl rfl⟩

theorem Numbered.onWritten (h : Numbered sv) (hnone : sv.usersBySession = ∅) (s : SessionId)
    (ok : Bool) : Numbered (sv.onWritten codec d s ok) := by
  have hdone : Numbered (sv.modify s fun x => { x with writes := x.writes - 1 }) :=
    h.modify s _ fun _ => le_rfl
  unfold Server.onWritten
  dsimp only
  split_ifs
  · exact hdone
  · exact hdone.onSessionDisconnected hnone s

/-- A session that is not established sends no ping. -/
theorem Numbered.onTimer (h : Numbered sv) (s : SessionId) (hstate : x.state ≠ .established)
    (wait : TimerWait) : Numbered (sv.onTimer codec d s x wait) := by
  unfold Server.onTimer
  dsimp only
  rw [if_pos hstate]
  exact h.modify s _ fun _ => le_rfl

theorem Numbered.onShutdown (h : Numbered sv) (hnone : sv.usersBySession = ∅) :
    Numbered sv.onShutdown := by
  have hkeys : sv.usersBySession.keys = [] := by
    rw [hnone]
    rfl
  unfold Server.onShutdown
  dsimp only
  rw [hkeys]
  split_ifs
  · exact h
  · exact numbered_of_eq h rfl rfl

/-- A step in which nobody logs in keeps the numbers in order. -/
theorem numbered_step (hnobody : Unattended sv) (h : Numbered sv)
    (hlogin : ¬ LogsIn codec crypto sv i) : Numbered (sv.step codec crypto i) := by
  have hnone := hnobody.usersBySession
  unfold step
  split_ifs with henabled
  · cases hevent : i.event with
    | accept ip => exact h.onAccept ip
    | acceptError | setMaxConnections | setMsgRate | setMotd => exact numbered_of_eq h rfl rfl
    | handshakeDone t ok => exact h.onHandshake hnone t ok
    | headerRead t size => exact h.onHeader hnone t size
    | payloadRead t data =>
      obtain ⟨x, found, -⟩ := found_of_any (hevent ▸ henabled)
      unfold perform
      simp only [found]
      exact h.onPayload hnobody hevent henabled found hlogin
    | writeDone t ok => exact h.onWritten hnone t ok
    | disconnectRuns t => exact h.modify t _ fun _ => le_rfl
    | timerExpires t => exact h.modify t _ fun _ => le_rfl
    | timerFires t wait =>
      unfold perform
      dsimp only
      split
      · exact h
      · rename_i x found
        exact h.onTimer t (hnobody.core t _ (core_of_sessions found)) wait
    | adminDisconnect userId =>
      unfold perform
      dsimp only
      split_ifs
      · exact h
      · split
        · exact h
        · exact h.disconnect _
    | cleanup => exact numbered_of_eq h rfl rfl
    | shutdown => exact h.onShutdown hnone
  · exact h

/-! ## Logins -/

/-- What the server does when somebody logs in. -/
theorem step_of_logsIn (hlogin : LogsIn codec crypto sv i) :
    ∃ (s : SessionId) (x : Session) (auth : AuthResponse) (db : Database),
      sv.sessions[s]? = some x ∧ sv.isNicknameAvailable auth.userId = true ∧
      sv.step codec crypto i = (establish codec i.draws
        { sv.modify s fun x => { x with reading := none } with db := db } s
        auth.userId).doReadFrameHeader s := by
  obtain ⟨s, x, auth, found, received, haccepts⟩ := hlogin
  obtain ⟨env, hdelivered, hstate, htype, hparse⟩ :=
    receivedAuth_eq_some (core_of_sessions found) received
  have hstate : x.state = .authPending := hstate
  obtain ⟨y, hy, e⟩ := @step_of_delivered codec crypto sv s i env hdelivered
  cases found.symm.trans hy
  have havailable := haccepts.1.available
  have haccepts' : PassesAuth crypto i.draws (sv.modify s fun x => { x with reading := none }) x
      auth := haccepts.of_eq rfl rfl
  obtain ⟨hpresents, db, hverdict⟩ := haccepts'
  refine ⟨s, x, auth, db, found, havailable, e.trans ?_⟩
  unfold handleEnvelope
  rw [htype]
  dsimp only
  rw [if_pos hstate, hparse]
  dsimp only
  rw [handleAuthResponse_presented hpresents, hverdict]
  rfl

theorem step_of_auth {auth : AuthResponse} (found : sv.sessions[s]? = some x)
    (received : receivedAuth codec s sv i = some auth)
    (presents : Presents crypto sv x.authNonce auth)
    (authenticates : Authenticates crypto s auth
      (readNext ∘ authenticated auth.userId ∘ stopReading) sv (sv.step codec crypto i)) :
    LogsIn codec crypto sv i := by
  refine ⟨s, x, auth, found, received, presents, ?_⟩
  rcases @registerOrVerify_cases crypto i.draws sv.db auth presents.key_ne_nil with
    ⟨code, message, e⟩ | ⟨db, e, -⟩
  · exfalso
    obtain ⟨env, hdelivered, hstate, htype, hparse⟩ :=
      receivedAuth_eq_some (core_of_sessions found) received
    have hstate : x.state = .authPending := hstate
    obtain ⟨y, hy, e'⟩ := @step_of_delivered codec crypto sv s i env hdelivered
    cases found.symm.trans hy
    have hpresents : Presents crypto (sv.modify s fun x => { x with reading := none }) x.authNonce
        auth := ⟨presents.userId, presents.available, presents.keyLength, presents.signatureLength,
      presents.verified⟩
    have hhandled : (sv.modify s fun x => { x with reading := none }).handleEnvelope codec crypto
        i.draws s x env = (sv.modify s fun x => { x with reading := none }).authFail codec i.draws s
          code (str message) := by
      unfold handleEnvelope
      rw [htype]
      dsimp only
      rw [if_pos hstate, hparse]
      dsimp only
      rw [handleAuthResponse_presented hpresents, show registerOrVerify crypto i.draws
        (sv.modify s fun x => { x with reading := none }).db auth = _ from e]
      rfl
    have hquiet : Quiet False (some s) (sv.modify s fun x => { x with reading := none }) _ :=
      @quiet_authFail False codec i.draws _ s code (str message)
    have hmoves := (stopReading_moves.trans_quiet hquiet).trans doReadFrameHeader_moves
    have hcore := authenticates.core s
    rw [e', hhandled, hmoves.core, if_pos rfl, if_pos rfl, core_of_sessions found] at hcore
    have hstates := congrArg SessionCore.state (Option.some.inj hcore)
    rw [Function.comp_apply, Function.comp_apply, Function.comp_apply, (readNext_eq _).1,
      (readNext_eq _).1] at hstates
    exact SessionState.noConfusion (hstate.symm.trans hstates)
  · exact ⟨db, e⟩

theorem SessionStep.not_established {c c' : SessionCore} (h : SessionStep codec s sv i c c')
    (hc : c.state ≠ .established) : c'.state ≠ .established := by
  cases h with
  | same => exact hc
  | handshake => exact SessionState.noConfusion
  | header => exact hc
  | frame size reads =>
    rw [(readNext_eq _).1]
    exact hc
  | hello nonce size reads accepted state =>
    rw [(readNext_eq _).1]
    exact SessionState.noConfusion
  | closed => exact SessionState.noConfusion

theorem unattended_step (h : Unattended sv) (hlogin : ¬ LogsIn codec crypto sv i) :
    Unattended (sv.step codec crypto i) := by
  cases step_effect codec crypto sv i with
  | background quiet =>
    exact ⟨quiet.sessionsByUser.trans h.sessionsByUser,
      quiet.usersBySession.trans h.usersBySession, fun t c hc => h.core t c (quiet.core t ▸ hc)⟩
  | session s x g found alive fresh step moves =>
    refine ⟨moves.sessionsByUser.trans h.sessionsByUser,
      moves.usersBySession.trans h.usersBySession, fun t c hc => ?_⟩
    rw [moves.core] at hc
    split_ifs at hc with hst
    · obtain ⟨c₀, hc₀, rfl⟩ := Option.map_eq_some_iff.1 hc
      rw [← hst, core_of_sessions found] at hc₀
      cases hc₀
      exact step.not_established (h.core s _ (core_of_sessions found))
    · exact h.core t c hc
  | auth s x auth found size reads state received presents authenticates =>
    exact absurd (step_of_auth found received presents authenticates) hlogin
  | teardown s x sv₁ g found call alive completes fresh moves quiet =>
    have hnone : sv₁.usersBySession.lookup s = none := by
      rw [moves.usersBySession, h.usersBySession]
      exact AList.lookup_empty s
    obtain ⟨-, e⟩ | ⟨u, hu, -⟩ := unregister_cases sv₁ s
    · refine ⟨?_, ?_, fun t c hc => ?_⟩
      · rw [quiet.sessionsByUser, e]
        exact moves.sessionsByUser.trans h.sessionsByUser
      · rw [quiet.usersBySession, e]
        exact moves.usersBySession.trans h.usersBySession
      · rw [core_of_teardown moves quiet] at hc
        split_ifs at hc
        · obtain ⟨c₀, hc₀, rfl⟩ := Option.map_eq_some_iff.1 hc
          rw [completes.state]
          exact h.core t c₀ hc₀
        · exact h.core t c hc
    · rw [hnone] at hu
      cases hu
  | accept sessions sessionsByUser usersBySession =>
    refine ⟨sessionsByUser.trans h.sessionsByUser, usersBySession.trans h.usersBySession,
      fun t c hc => ?_⟩
    obtain ⟨x', hx', rfl⟩ := core_eq_some.1 hc
    rcases sessions_of_accept sessions hx' with hx | ⟨-, rfl⟩
    · exact h.core t _ (core_of_sessions hx)
    · exact SessionState.noConfusion
  | shutdown event first core untouched sessionsByUser usersBySession =>
    exact ⟨sessionsByUser, usersBySession, fun t c hc => h.core t c (core t ▸ hc)⟩

/-- The log only grows. -/
theorem speaks_written : Speaks fun sv sv' => sv.written <+: sv'.written where
  refl _ := List.prefix_rfl
  trans := List.IsPrefix.trans
  modify _ _ _ _ := List.prefix_rfl
  log _ _ _ _ := List.prefix_append _ _
  rest _ _ _ _ h := h ▸ List.prefix_rfl

theorem written_deliverOffline :
    sv.written <+: (sv.deliverOffline codec d s userId).written := by
  unfold deliverOffline
  cases OfflineStore.fetchAndDelete sv.db userId d.nowUnix with
  | mk payloads db =>
    exact speaks_written.foldl (f := fun sv env => sv.send s env)
      (fun sv env => List.prefix_append sv.written [(s, env)]) _ { sv with db := db }

theorem written_startTraffic :
    sv.written <+: (sv.startTraffic codec d s userId).written := by
  unfold startTraffic
  dsimp only
  have hreplay (sv : Server) : sv.written <+: (sv.deliverOffline codec d s userId).written :=
    written_deliverOffline
  exact (hreplay ((sv.modify s Session.startPingTimer).modify s _)).trans
    (speaks_written.broadcastPresence _ _ _)

/-- `AUTH_OK` is written to the session. -/
theorem written_enterEstablished (found : sv.sessions[s]? = some x) :
    ∃ env, (s, env) ∈ (sv.enterEstablished codec d s userId).written ∧ env.Originated := by
  have hfound : (sv.modify s fun x => { x with userId := userId }).sessions[s]? =
      some { x with userId := userId } := by
    rw [sessions_modify, if_pos rfl, found]
    rfl
  refine ⟨⟨x.nextSeq, d.nowMs, .authOk, []⟩, ?_, ⟨nofun, nofun⟩⟩
  have hgrows (sv : Server) : sv.written <+: (sv.sendMotd codec d s).written := by
    unfold sendMotd
    split_ifs
    · exact List.prefix_rfl
    · exact speaks_written.sendEnvelope _ _ (by decide) _
  unfold enterEstablished
  refine (hgrows _).subset ?_
  unfold sendEnvelope
  rw [hfound]
  exact List.mem_append_right _ List.mem_cons_self

/-- A user that logs in is told about itself, under the number zero. -/
theorem not_seqsIncrease_establish (found : sv.sessions[s]? = some x)
    (hfree : sv.sessionsByUser.lookup userId = none) :
    ¬ SeqsIncrease (establish codec d sv s userId) := by
  have henter := @enterEstablished_moves codec d sv s userId
  obtain ⟨env, hmem, horiginated⟩ :=
    @written_enterEstablished codec d sv s x userId found
  unfold establish onSessionAuthenticated
  dsimp only
  rw [register_eq (by rw [henter.sessionsByUser]; exact hfree)]
  generalize sv.enterEstablished codec d s userId = sv₁ at henter hmem ⊢
  have hcore := henter.core s
  rw [if_pos rfl, core_of_sessions found] at hcore
  have honline : userId ∈ (sv₁.addSession s userId).onlineUsers :=
    @mem_onlineUsers (sv₁.addSession s userId) s userId _ (AList.lookup_insert _) hcore rfl
  obtain ⟨rest, hrest⟩ := @written_startTraffic codec d ((sv₁.addSession s
    userId).sendPresenceSnapshot codec d s (sv₁.addSession s userId).onlineUsers) s userId
  intro hincrease
  have hseqs := hincrease s
  rw [← hrest, written_sendPresenceSnapshot, List.append_assoc, seqsTo_append,
    List.pairwise_append] at hseqs
  have hfirst : env.seq ∈ seqsTo s (sv₁.addSession s userId).written :=
    mem_seqsTo.2 ⟨env, hmem, horiginated, rfl⟩
  have hzero : 0 ∈ seqsTo s (((sv₁.addSession s userId).onlineUsers.map fun u =>
      (s, presenceEnvelope codec d ⟨u, .online⟩)) ++ rest) :=
    mem_seqsTo.2 ⟨presenceEnvelope codec d ⟨userId, .online⟩,
      List.mem_append_left _ (List.mem_map.2 ⟨userId, honline, rfl⟩), ⟨nofun, nofun⟩, rfl⟩
  exact Nat.not_lt_zero _ (hseqs.2.2 env.seq hfirst 0 hzero)

theorem seqsIncrease_doReadFrameHeader :
    SeqsIncrease (sv.doReadFrameHeader s) ↔ SeqsIncrease sv :=
  Iff.rfl

theorem not_seqsIncrease_of_logsIn (hlogin : LogsIn codec crypto sv i) :
    ¬ SeqsIncrease (sv.step codec crypto i) := by
  obtain ⟨s, x, auth, db, found, havailable, e⟩ := step_of_logsIn hlogin
  rw [e, seqsIncrease_doReadFrameHeader]
  have hfound : ({ sv.modify s fun x => { x with reading := none } with db := db } :
      Server).sessions[s]? = some { x with reading := none } := by
    show (sv.modify s fun x => { x with reading := none }).sessions[s]? = _
    rw [sessions_modify, if_pos rfl, found]
    rfl
  exact not_seqsIncrease_establish hfound (lookup_of_isNicknameAvailable havailable)

/-- The numbers of a session increase throughout a run exactly if nobody ever logs in. -/
theorem seqs_increase_iff (codec : Codec) (crypto : Crypto) (config : Config) (db : Database)
    (is : List Input) :
    AllStates (step codec crypto) SeqsIncrease (start config db) is ↔
      AllSteps (step codec crypto) (fun sv i => ¬ LogsIn codec crypto sv i) (start config db)
        is := by
  constructor
  · intro hall
    exact hall.stepped.mono fun sv i hincrease hlogin => not_seqsIncrease_of_logsIn hlogin hincrease
  · intro hsteps
    have hstart : Unattended (start config db) ∧ Numbered (start config db) :=
      ⟨⟨rfl, rfl, fun t c hc => by cases hc⟩,
        ⟨fun t => .nil, fun e he => absurd he List.not_mem_nil⟩⟩
    have hrun : AllStates (step codec crypto) (fun sv => Unattended sv ∧ Numbered sv)
        (start config db) is :=
      .of_steps hstart (fun sv i h hlogin =>
        ⟨unattended_step h.1 hlogin, numbered_step h.1 h.2 hlogin⟩) hsteps
    exact hrun.mono fun _ h => h.2.increase

end Proofs

/-- `alice` logs in. -/
def plainLogin : List Input := (loginEvents 0 (str "alice") aliceSignature).map Event.atZero

/-- The challenge has number 1, `AUTH_OK` number 2, and then comes number 0. -/
theorem not_seqsIncrease_plainLogin :
    ¬ AllStates (step .proto3 capitalCrypto) SeqsIncrease (start ⟨10, 10, 10, []⟩ .empty)
      plainLogin := by
  intro hall
  have hseqs : seqsTo 0 (final (step .proto3 capitalCrypto) (start ⟨10, 10, 10, []⟩ .empty)
      plainLogin).written = [1, 2, 0] := by decide +kernel
  have hincrease := hall.final 0
  rw [hseqs] at hincrease
  exact absurd hincrease (by decide)

end Server

end Ircord

import IrcordServer.Net.Registry

/-!
# Ping timers and rate limiters

Each session has a ping timer and, once it is established, a limiter of its own.  Other sessions
never touch them, and of its own handlers only a few do: a login, a `PONG`, the two handlers of the
timer, the end of the connection and the check of a limited message (`step_pulse`).
-/

open Container

namespace Ircord

/-- The part of a session that its ping timer and its limiter work on. -/
structure Pulse where
  state : SessionState
  pingSent : Bool
  timer : Option TimerWait
  expired : List TimerWait
  limiter : Option RateLimiter

def Session.pulse (x : Session) : Pulse :=
  ⟨x.state, x.pingSent, x.timer, x.expired, x.msgRateLimiter⟩

/-- What the timers and limiters of the server read. -/
structure Meters where
  pulse : SessionId → Option Pulse
  ipRateMap : UnorderedMap Str RateLimiter
  msgRatePerSec : ℤ
  connRatePerMin : ℤ

/-- A change of the pulse of one session. -/
def Meters.onPulse (m : Meters) (s : SessionId) (g : Pulse → Pulse) : Meters :=
  { m with pulse := fun t => if s = t then (m.pulse t).map g else m.pulse t }

namespace Server

def meters (sv : Server) : Meters where
  pulse t := (sv.sessions[t]?).map Session.pulse
  ipRateMap := sv.ipRateMap
  msgRatePerSec := sv.msgRatePerSec
  connRatePerMin := sv.connRatePerMin

section Frame

variable {codec : Codec} {crypto : Crypto} {d : Draws} {sv sv' : Server} {s t : SessionId}
  {x : Session}

theorem pulse_of_found (found : sv.sessions[s]? = some x) :
    sv.meters.pulse s = some x.pulse := congrArg (Option.map Session.pulse) found

theorem found_of_pulse {p : Pulse} (h : sv.meters.pulse s = some p) :
    ∃ x, sv.sessions[s]? = some x ∧ x.pulse = p := Option.map_eq_some_iff.1 h

theorem onPulse_own (m : Meters) (g : Pulse → Pulse) :
    (m.onPulse s g).pulse s = (m.pulse s).map g := if_pos rfl

theorem onPulse_other (m : Meters) (g : Pulse → Pulse) (hne : s ≠ t) :
    (m.onPulse s g).pulse t = m.pulse t := if_neg hne

theorem onPulse_id (m : Meters) (s : SessionId) : m.onPulse s id = m := by
  unfold Meters.onPulse
  simp only [Option.map_id, id_eq, ite_self]

theorem onPulse_onPulse (m : Meters) (g g' : Pulse → Pulse) :
    (m.onPulse s g).onPulse s g' = m.onPulse s (g' ∘ g) := by
  unfold Meters.onPulse
  congr 1
  funext t
  dsimp only
  split_ifs
  · exact Option.map_map g' g (m.pulse t)
  · rfl

theorem meters_modify {f : Session → Session} {g : Pulse → Pulse}
    (hf : ∀ x, (f x).pulse = g x.pulse) : (sv.modify s f).meters = sv.meters.onPulse s g := by
  unfold meters Meters.onPulse
  congr 1
  funext t
  dsimp only
  rw [sessions_modify]
  split_ifs with h
  · rw [Option.map_map, Option.map_map]
    exact congrArg (Option.map · _) (funext hf)
  · rfl

/-! ## What leaves them alone -/

theorem meters_modify_of_same (f : Session → Session) (hf : ∀ x, (f x).pulse = x.pulse) :
    (sv.modify s f).meters = sv.meters := by
  rw [meters_modify (g := id) hf, onPulse_id]

theorem meters_send (t : SessionId) (env : Envelope) : (sv.send t env).meters = sv.meters :=
  @meters_modify_of_same sv t (fun x => { x with writes := x.writes + 1 }) fun _ => rfl

theorem meters_disconnect (t : SessionId) : (sv.disconnect t).meters = sv.meters :=
  meters_modify_of_same _ fun _ => rfl

theorem meters_foldl {β : Type} {f : Server → β → Server}
    (hf : ∀ sv b, (f sv b).meters = sv.meters) (bs : List β) (sv : Server) :
    (bs.foldl f sv).meters = sv.meters := by
  induction bs generalizing sv with
  | nil => rfl
  | cons b bs ih => exact (ih _).trans (hf sv b)

theorem meters_sendEnvelope (type : MessageType) (payload : Bytes) :
    (sv.sendEnvelope d s type payload).meters = sv.meters := by
  unfold sendEnvelope
  split
  · rfl
  · exact (meters_send s _).trans (meters_modify_of_same _ fun _ => rfl)

theorem meters_sendError (code : UInt32) (message : String) :
    (sv.sendError codec d s code message).meters = sv.meters :=
  meters_sendEnvelope _ _

theorem meters_sendError_disconnect (code : UInt32) (message : String) :
    ((sv.sendError codec d s code message).disconnect s).meters = sv.meters :=
  (meters_disconnect s).trans (meters_sendError code message)

theorem meters_authFail (code : UInt32) (message : Str) :
    (sv.authFail codec d s code message).meters = sv.meters :=
  (meters_disconnect s).trans (meters_sendEnvelope _ _)

theorem meters_run (actions : List Action) : (sv.run actions).meters = sv.meters := by
  refine meters_foldl (fun sv a => ?_) actions sv
  cases a with
  | send t env => exact meters_send t env
  | disconnect t reason => exact meters_disconnect t

theorem meters_broadcast (env : Envelope) (exclude : Option SessionId) :
    (sv.broadcast env exclude).meters = sv.meters :=
  meters_foldl (fun _ t => meters_send t env) _ sv

theorem meters_broadcastPresence (update : PresenceUpdate) (exclude : Option SessionId) :
    (sv.broadcastPresence codec d update exclude).meters = sv.meters :=
  meters_broadcast _ _

theorem meters_leaveVoiceRooms (userId : Str) :
    (sv.leaveVoiceRooms codec userId).meters = sv.meters :=
  @meters_run { sv with voice := (sv.voice.onDisconnect codec sv.findSession userId).1 } _

theorem meters_unregister : (sv.unregister s).meters = sv.meters := by
  unfold unregister
  dsimp only
  split <;> rfl

theorem meters_onSessionDisconnected :
    (sv.onSessionDisconnected codec d s).meters = sv.meters := by
  unfold onSessionDisconnected
  split
  · exact meters_unregister
  · dsimp only
    split_ifs
    · exact meters_unregister
    · exact (meters_leaveVoiceRooms _).trans
        ((meters_broadcastPresence _ _).trans meters_unregister)

theorem meters_doReadFrameHeader : (sv.doReadFrameHeader s).meters = sv.meters :=
  meters_modify_of_same _ fun x => by split_ifs <;> rfl

/-! ## Messages -/

theorem meters_handleChat (chat : ChatEnvelope) (raw : Envelope) :
    (sv.handleChat codec d s x chat raw).meters = sv.meters := by
  unfold handleChat
  split_ifs
  · exact meters_sendError_disconnect _ _
  · exact meters_sendError _ _
  · exact meters_broadcast _ _
  · split
    · exact meters_send _ _
    · split
      · rfl
      · exact meters_sendError _ _

theorem meters_handleVoiceSignal (vs : VoiceSignal) (raw : Envelope) :
    (sv.handleVoiceSignal codec d s x vs raw).meters = sv.meters := by
  unfold handleVoiceSignal
  split_ifs
  · exact meters_sendError_disconnect _ _
  · exact meters_sendError _ _
  · split
    · exact meters_send _ _
    · exact meters_sendError _ _
  · split
    · exact meters_send _ _
    · rfl

theorem meters_handleVoiceRoomJoin (join : VoiceRoomJoin) :
    (sv.handleVoiceRoomJoin codec d s x join).meters = sv.meters := by
  unfold handleVoiceRoomJoin
  dsimp only
  split_ifs
  · exact (meters_sendEnvelope _ _).trans (meters_run _)
  · exact meters_run _

theorem meters_handleKeyUpload (ku : KeyUpload) :
    (sv.handleKeyUpload d x ku).meters = sv.meters := by
  unfold handleKeyUpload
  dsimp only
  split <;> rfl

theorem meters_handleKeyRequest (kr : KeyRequest) :
    (sv.handleKeyRequest codec d s kr).meters = sv.meters := by
  unfold handleKeyRequest
  split
  · exact meters_sendError _ _
  · exact meters_sendEnvelope _ _

theorem meters_handleCommand (cmd : IrcCommand) :
    (sv.handleCommand codec crypto d s x cmd).meters = sv.meters :=
  (meters_send _ _).trans (meters_run _)

/-- The uploads are no part of it, nor are the tables. -/
theorem meters_setUploads (db : Database)
    (f : UnorderedMap Str FileUploadState → UnorderedMap Str FileUploadState) :
    ({ sv with db := db }.modify s fun x =>
      { x with activeUploads := f x.activeUploads }).meters = sv.meters :=
  @meters_modify_of_same { sv with db := db } s _ fun _ => rfl

theorem meters_handleFileRequest (req : FileUploadRequest) :
    (sv.handleFileRequest codec d s x req).meters = sv.meters := by
  unfold handleFileRequest
  split
  · exact meters_sendEnvelope _ _
  · split
    · exact meters_sendEnvelope _ _
    · dsimp only
      split
      · exact meters_sendEnvelope _ _
      · exact (meters_sendEnvelope _ _).trans
          (meters_setUploads _ fun uploads => uploads.insert _ _)

theorem meters_finishUpload (fileId : Str) (upload : FileUploadState) :
    (sv.finishUpload codec d s fileId upload).meters = sv.meters := by
  have herase (sv : Server) : (sv.modify s fun x =>
      { x with activeUploads := x.activeUploads.erase fileId }).meters = sv.meters :=
    meters_setUploads sv.db fun uploads => uploads.erase fileId
  unfold finishUpload
  dsimp only
  split_ifs
  · exact (herase _).trans (meters_sendEnvelope _ _)
  · exact (herase _).trans (meters_sendEnvelope _ _)

/-- Behind the check of the limiter. -/
theorem meters_handleFileUpload (chunk : FileUploadChunk) :
    (sv.handleFileUpload codec d s x chunk).meters = (sv.allowMessage d s x).2.meters := by
  unfold handleFileUpload
  rcases sv.allowMessage d s x with ⟨allowed, sv₁⟩
  cases allowed with
  | false => exact meters_sendEnvelope _ _
  | true =>
    dsimp only
    split
    · exact meters_sendEnvelope _ _
    · rename_i upload _
      split
      · exact meters_sendEnvelope _ _
      · split
        · exact meters_sendEnvelope _ _
        · rename_i db _
          have hprogress (upload : FileUploadState) : (({ sv₁ with db := db }.modify s fun x =>
              { x with activeUploads :=
                x.activeUploads.insert chunk.fileId upload }).sendFileProgress codec d s
                  chunk.fileId upload.bytesReceived upload.fileSize "uploading").meters =
                sv₁.meters :=
            (meters_sendEnvelope _ _).trans (meters_setUploads _ fun uploads => uploads.insert _ _)
          split
          · exact (meters_finishUpload _ _).trans (hprogress _)
          · exact hprogress _

theorem meters_sendChunks (fileId : Str) (fileSize totalChunks n i : ℕ) (sv : Server) :
    (sendChunks codec d s fileId fileSize totalChunks n i sv).meters = sv.meters := by
  induction n generalizing i sv with
  | zero => rfl
  | succ n ih =>
    unfold sendChunks
    split
    · exact meters_sendEnvelope _ _
    · exact (ih _ _).trans ((meters_sendEnvelope _ _).trans (meters_sendEnvelope _ _))

theorem meters_handleFileDownload (req : FileDownloadRequest) :
    (sv.handleFileDownload codec d s req).meters = sv.meters := by
  unfold handleFileDownload
  split
  · exact meters_sendEnvelope _ _
  · exact meters_sendChunks _ _ _ _ _ _

/-! ## Envelopes -/

theorem meters_handlePayload {α : Type} (env : Envelope) (wire : Wire α) (code : UInt32)
    (message : String) {handle : α → Server} (h : ∀ m, (handle m).meters = sv.meters) :
    (sv.handlePayload codec d s env wire code message handle).meters = sv.meters := by
  unfold handlePayload
  split
  · exact meters_sendError _ _
  · exact h _

theorem meters_ifAuthenticated (code : UInt32) {handled : Server}
    (h : handled.meters = sv.meters) :
    (sv.ifAuthenticated codec d s x code handled).meters = sv.meters := by
  unfold ifAuthenticated
  split_ifs
  · exact h
  · exact meters_sendError _ _

theorem meters_handleHello (hello : Hello) :
    (sv.handleHello codec d s hello).meters = sv.meters ∨
      (sv.handleHello codec d s hello).meters =
        sv.meters.onPulse s fun p => { p with state := .authPending } := by
  unfold handleHello
  split_ifs
  · exact Or.inl (meters_sendError_disconnect _ _)
  · have hnonce : (sv.modify s fun x => { x with authNonce := d.nonce }).meters = sv.meters :=
      meters_modify_of_same _ fun _ => rfl
    right
    dsimp only
    rw [meters_modify (g := fun p => { p with state := .authPending }) fun _ => rfl,
      meters_sendEnvelope, hnonce]

end Frame

end Server

/-- The envelope counts against the limit of its session: a chat message, a voice signal, or a
chunk of a file. -/
def Envelope.isLimited (codec : Codec) (env : Envelope) : Bool :=
  match env.type with
  | .chatEnvelope | .voiceSignal => true
  | .fileUpload => !env.payload.isEmpty &&
      (codec.fileUploadChunk.parse env.payload).any fun chunk => !chunk.data.isEmpty
  | _ => false

namespace Server

section Envelopes

variable {codec : Codec} {crypto : Crypto} {d : Draws} {sv sv' : Server} {s t : SessionId}
  {x : Session}

theorem meters_ifAllowed {handled : Server → Server} (h : ∀ sv, (handled sv).meters = sv.meters) :
    (sv.ifAllowed codec d s x handled).meters = (sv.allowMessage d s x).2.meters := by
  unfold ifAllowed
  rcases sv.allowMessage d s x with ⟨allowed, sv₁⟩
  cases allowed with
  | false => exact meters_sendError _ _
  | true => exact h sv₁

/-- The chunk that a limited `FILE_UPLOAD` carries. -/
theorem chunk_of_isLimited {env : Envelope} (h : env.isLimited codec = true)
    (htype : env.type = .fileUpload) : env.payload.isEmpty = false ∧
      ∃ chunk, (codec.fileUploadChunk.parse env.payload).filter (fun chunk => !chunk.data.isEmpty) =
        some chunk := by
  unfold Envelope.isLimited at h
  rw [htype] at h
  simp only [Bool.and_eq_true, Bool.not_eq_true', Option.any_eq_true] at h
  obtain ⟨hpayload, chunk, hparse, hdata⟩ := h
  refine ⟨hpayload, chunk, ?_⟩
  rw [hparse, Option.filter_some, hdata]
  rfl

/-- A limited envelope is checked before it is handled. -/
theorem meters_limited {env : Envelope} (hlimited : env.isLimited codec = true)
    (hstate : x.state = .established) :
    (sv.handleEnvelope codec crypto d s x env).meters = (sv.allowMessage d s x).2.meters := by
  unfold handleEnvelope
  cases htype : env.type with
  | chatEnvelope =>
    dsimp only [ifAuthenticated]
    rw [if_pos hstate]
    exact meters_ifAllowed fun _ => meters_handlePayload _ _ _ _ fun _ => meters_handleChat _ _
  | voiceSignal =>
    dsimp only [ifAuthenticated]
    rw [if_pos hstate]
    exact meters_ifAllowed fun _ =>
      meters_handlePayload _ _ _ _ fun _ => meters_handleVoiceSignal _ _
  | fileUpload =>
    obtain ⟨hpayload, chunk, hchunk⟩ := chunk_of_isLimited hlimited htype
    dsimp only [ifAuthenticated]
    rw [if_pos hstate]
    unfold handleFileUploadPayload
    rw [hpayload, if_neg Bool.false_ne_true, hchunk]
    exact meters_handleFileUpload chunk
  | _ =>
    unfold Envelope.isLimited at hlimited
    rw [htype] at hlimited
    cases hlimited

/-- An envelope that is not checked, apart from `PONG` and the authentication. -/
theorem meters_handleEnvelope {env : Envelope} (hpong : env.type ≠ .pong)
    (hhello : env.type ≠ .hello) (hauth : env.type ≠ .authResponse)
    (hfree : x.state = .established → env.isLimited codec = false) :
    (sv.handleEnvelope codec crypto d s x env).meters = sv.meters := by
  have hearly (code : UInt32) (handled : Server) (hstate : x.state ≠ .established) :
      (sv.ifAuthenticated codec d s x code handled).meters = sv.meters := by
    unfold ifAuthenticated
    rw [if_neg hstate]
    exact meters_sendError _ _
  unfold handleEnvelope
  cases htype : env.type with
  | pong => exact absurd htype hpong
  | authResponse => exact absurd htype hauth
  | hello => exact absurd htype hhello
  | ping =>
    dsimp only
    split_ifs
    · exact (meters_send _ _).trans (meters_modify_of_same _ fun _ => rfl)
    · rfl
  | chatEnvelope | voiceSignal =>
    refine hearly _ _ fun hstate => ?_
    have hfree := hfree hstate
    unfold Envelope.isLimited at hfree
    rw [htype] at hfree
    cases hfree
  | voiceRoomJoin =>
    dsimp only
    split_ifs
    · exact meters_handlePayload _ _ _ _ fun _ => meters_handleVoiceRoomJoin _
    · rfl
  | voiceRoomLeave =>
    dsimp only
    split_ifs
    · exact meters_handlePayload _ _ _ _ fun leave => @meters_run { sv with
        voice := (sv.voice.leave codec sv.findSession leave.channelId x.userId).1 } _
    · rfl
  | keyUpload =>
    exact meters_ifAuthenticated _ (meters_handlePayload _ _ _ _ fun _ => meters_handleKeyUpload _)
  | keyRequest =>
    exact meters_ifAuthenticated _ (meters_handlePayload _ _ _ _ fun _ => meters_handleKeyRequest _)
  | command =>
    exact meters_ifAuthenticated _ (meters_handlePayload _ _ _ _ fun _ => meters_handleCommand _)
  | fileUpload =>
    by_cases hstate : x.state = .established
    · refine meters_ifAuthenticated _ ?_
      unfold handleFileUploadPayload
      split
      · exact meters_sendError _ _
      · split
        · rename_i hpayload _ chunk hchunk
          obtain ⟨hparse, hdata⟩ := Option.filter_eq_some_iff.1 hchunk
          have hlimited : env.isLimited codec = true := by
            unfold Envelope.isLimited
            rw [htype]
            simp only [hparse, Option.any_some, hdata, Bool.and_true, Bool.not_eq_true']
            exact Bool.eq_false_iff.2 hpayload
          rw [hfree hstate] at hlimited
          cases hlimited
        · split
          · exact meters_handleFileRequest _
          · exact meters_sendError _ _
    · exact hearly _ _ hstate
  | fileDownload =>
    exact meters_ifAuthenticated _
      (meters_handlePayload _ _ _ _ fun _ => meters_handleFileDownload _)
  | authChallenge | authOk | authFail | keyBundle | presence | voiceRoomState | commandResponse
  | nickChange | fileChunk | fileProgress | fileComplete | fileError | motd | error | other =>
    rfl

/-! ## Logins -/

/-- The pulse of a session that has just been established. -/
def started (msgRatePerSec : ℤ) (d : Draws) (p : Pulse) : Pulse :=
  ⟨.established, false, some .interval, p.expired,
    some (.new msgRatePerSec (seconds 1) d.now)⟩

theorem meters_enterEstablished (userId : Str) :
    (sv.enterEstablished codec d s userId).meters =
      sv.meters.onPulse s fun p => { p with state := .established } := by
  have huser : (sv.modify s fun x => { x with userId := userId }).meters = sv.meters :=
    meters_modify_of_same _ fun _ => rfl
  have hmotd (sv : Server) : (sv.sendMotd codec d s).meters = sv.meters := by
    unfold sendMotd
    split_ifs
    · rfl
    · exact meters_sendEnvelope _ _
  unfold enterEstablished
  dsimp only
  rw [hmotd, meters_modify (g := fun p => { p with state := .established }) fun _ => rfl,
    meters_sendEnvelope, huser]

theorem meters_onSessionAuthenticated (userId : Str) :
    (sv.onSessionAuthenticated codec d s userId).meters = sv.meters := by
  have hregister : (sv.register s userId).meters = sv.meters := by
    unfold register
    split
    · rfl
    · exact @meters_disconnect sv _
  exact (meters_foldl (fun _ _ => meters_send s _) _ _).trans hregister

theorem meters_startTraffic (userId : Str) :
    (sv.startTraffic codec d s userId).meters = sv.meters.onPulse s fun p => { p with
      pingSent := false
      timer := some .interval
      limiter := some (.new sv.meters.msgRatePerSec (seconds 1) d.now) } := by
  have hreplay (sv : Server) : (sv.deliverOffline codec d s userId).meters = sv.meters := by
    unfold deliverOffline
    rcases OfflineStore.fetchAndDelete sv.db userId d.nowUnix with ⟨payloads, db⟩
    exact meters_foldl (fun _ env => meters_send s env) _ { sv with db := db }
  have htimer : (sv.modify s Session.startPingTimer).meters = sv.meters.onPulse s fun p =>
      { p with pingSent := false, timer := some .interval } := meters_modify fun _ => rfl
  unfold startTraffic
  dsimp only
  rw [meters_broadcastPresence, hreplay,
    meters_modify (g := fun p =>
      { p with limiter := some (.new sv.msgRatePerSec (seconds 1) d.now) }) fun _ => rfl, htimer,
    onPulse_onPulse]
  rfl

theorem meters_establish (userId : Str) : (establish codec d sv s userId).meters =
    sv.meters.onPulse s (started sv.meters.msgRatePerSec d) := by
  unfold establish
  dsimp only
  rw [meters_startTraffic, meters_onSessionAuthenticated, meters_enterEstablished, onPulse_onPulse]
  rfl

/-- A login that is refused, or ends in an exception, leaves the meters alone. -/
theorem meters_handleAuthResponse (auth : AuthResponse) :
    (sv.handleAuthResponse codec crypto d s x auth).meters = sv.meters ∨
      (sv.handleAuthResponse codec crypto d s x auth).meters =
        sv.meters.onPulse s (started sv.meters.msgRatePerSec d) := by
  unfold handleAuthResponse
  split_ifs
  · exact Or.inl (meters_sendError_disconnect _ _)
  · exact Or.inl (meters_authFail _ _)
  · exact Or.inl (meters_sendError_disconnect _ _)
  · exact Or.inl (meters_sendError_disconnect _ _)
  · exact Or.inl (meters_authFail _ _)
  · cases registerOrVerify crypto d sv.db auth with
    | accept db => exact Or.inr (@meters_establish codec d { sv with db := db } s auth.userId)
    | fail code message => exact Or.inl (meters_authFail _ _)
    | insertFailed => exact Or.inl (meters_sendError_disconnect _ _)
    | threw db => exact Or.inl rfl

/-- The check of a limited message. -/
def counted (d : Draws) (limiter : Option RateLimiter) (p : Pulse) : Pulse :=
  match limiter with
  | none => p
  | some limiter => { p with limiter := some (limiter.allow d.now).2 }

theorem meters_allowMessage :
    (sv.allowMessage d s x).2.meters = sv.meters.onPulse s (counted d x.msgRateLimiter) := by
  unfold allowMessage counted
  cases x.msgRateLimiter with
  | none => exact (onPulse_id sv.meters s).symm
  | some limiter => exact meters_modify fun _ => rfl

theorem meters_pong :
    (sv.modify s fun x => { x.resetPingTimer with pingSent := false }).meters =
      sv.meters.onPulse s fun p => { p with pingSent := false, timer := some .interval } :=
  meters_modify fun _ => rfl

variable (codec crypto) in
/-- Whatever the envelope, nothing changes but the pulse of its session. -/
theorem meters_handleEnvelope_exists (d : Draws) (sv : Server) (s : SessionId) (x : Session)
    (env : Envelope) :
    ∃ g, (sv.handleEnvelope codec crypto d s x env).meters = sv.meters.onPulse s g := by
  have hsame {sv' : Server} (h : sv'.meters = sv.meters) :
      ∃ g, sv'.meters = sv.meters.onPulse s g := ⟨id, h.trans (onPulse_id _ _).symm⟩
  by_cases hpong : env.type = .pong
  · unfold handleEnvelope
    rw [hpong]
    exact ⟨_, meters_pong⟩
  by_cases hhello : env.type = .hello
  · unfold handleEnvelope
    rw [hhello]
    dsimp only
    split_ifs
    · split
      · exact hsame (meters_sendError_disconnect _ _)
      · rename_i hello _
        rcases @meters_handleHello codec d sv s hello with h | h
        · exact hsame h
        · exact ⟨_, h⟩
    · exact hsame rfl
  by_cases hauth : env.type = .authResponse
  · unfold handleEnvelope
    rw [hauth]
    dsimp only
    split_ifs
    · split
      · exact hsame (meters_sendError_disconnect _ _)
      · rename_i auth _
        rcases @meters_handleAuthResponse codec crypto d sv s x auth with h | h
        · exact hsame h
        · exact ⟨_, h⟩
    · exact hsame rfl
  by_cases hlimited : x.state = .established ∧ env.isLimited codec = true
  · exact ⟨_, (meters_limited hlimited.2 hlimited.1).trans meters_allowMessage⟩
  · exact hsame (meters_handleEnvelope hpong hhello hauth fun hstate =>
      Bool.eq_false_iff.2 fun hchecked => hlimited ⟨hstate, hchecked⟩)

end Envelopes

/-! ## One step -/

section Step

variable {codec : Codec} {crypto : Crypto} {sv : Server} {i : Input} {s t : SessionId}
  {x : Session} {p : Pulse}

/-- What a step can do to the pulse of `t`. -/
inductive PulseStep (codec : Codec) (crypto : Crypto) (sv : Server) (i : Input) (t : SessionId)
    (p : Pulse) : Pulse → Prop
  | same (calm : ∀ env, delivered codec t sv i = some env → env.type ≠ .pong)
      (silent : ∀ wait, i.event = .timerFires t wait → sv.step codec crypto i = sv) :
      PulseStep codec crypto sv i t p p
  | opens (fresh : p = Session.new.pulse) (event : i.event = .handshakeDone t true) :
      PulseStep codec crypto sv i t p { p with state := .hello }
  | hello (env : Envelope) (received : delivered codec t sv i = some env)
      (type : env.type = .hello) (state : p.state = .hello) :
      PulseStep codec crypto sv i t p { p with state := .authPending }
  | login (env : Envelope) (received : delivered codec t sv i = some env)
      (type : env.type = .authResponse) (state : p.state = .authPending) :
      PulseStep codec crypto sv i t p (started sv.msgRatePerSec i.draws p)
  | pong (env : Envelope) (received : delivered codec t sv i = some env)
      (type : env.type = .pong) :
      PulseStep codec crypto sv i t p { p with pingSent := false, timer := some .interval }
  | limited (env : Envelope) (received : delivered codec t sv i = some env)
      (checked : env.isLimited codec = true) (state : p.state = .established)
      (limiter : RateLimiter) (own : p.limiter = some limiter) :
      PulseStep codec crypto sv i t p
        { p with limiter := some (limiter.allow i.draws.now).2 }
  | expires (event : i.event = .timerExpires t) : PulseStep codec crypto sv i t p
      { p with timer := none, expired := p.expired ++ p.timer.toList }
  | fires (wait : TimerWait) (event : i.event = .timerFires t wait) (queued : wait ∈ p.expired)
      (ends : p.state = .established → (wait = .timeout ∨ p.pingSent = true) ∧
        t ∈ (sv.step codec crypto i).disconnected)
      (silent : ∀ e ∈ sv.newlyWritten (sv.step codec crypto i), e.2.type ≠ .ping) :
      PulseStep codec crypto sv i t p { p with expired := p.expired.erase wait }
  | pings (event : i.event = .timerFires t .interval) (queued : .interval ∈ p.expired)
      (state : p.state = .established) (unsent : p.pingSent = false) (seq : ℕ)
      (sent : sv.newlyWritten (sv.step codec crypto i) = [(t, ⟨seq, i.draws.nowMs, .ping, []⟩)]) :
      PulseStep codec crypto sv i t p
        { p with pingSent := true, timer := some .timeout, expired := p.expired.erase .interval }
  | closed (event : i.event = .disconnectRuns t) : PulseStep codec crypto sv i t p
      { p with state := .dead, timer := none }

theorem meters_stopReading :
    (sv.modify s fun x => { x with reading := none }).meters = sv.meters :=
  meters_modify_of_same _ fun _ => rfl

/-- A frame of the session itself. -/
theorem pulse_of_delivered {env : Envelope} (hp : sv.meters.pulse t = some p)
    (h : delivered codec t sv i = some env) :
    ∃ p', (sv.step codec crypto i).meters.pulse t = some p' ∧
      PulseStep codec crypto sv i t p p' := by
  obtain ⟨x, found, hstep⟩ := @step_of_delivered codec crypto sv t i env h
  have hx : x.pulse = p := Option.some.inj ((pulse_of_found found).symm.trans hp)
  have hstate : x.state = p.state := congrArg Pulse.state hx
  have hcalm (htype : env.type ≠ .pong) : PulseStep codec crypto sv i t p p := by
    refine .same (fun env' henv' => ?_) fun wait hevent => ?_
    · cases h.symm.trans henv'
      exact htype
    · obtain ⟨data, hread, -, -⟩ := delivered_eq_some h
      cases hread.symm.trans hevent
  rw [hstep, meters_doReadFrameHeader]
  by_cases hpong : env.type = .pong
  · refine ⟨_, ?_, .pong env h hpong⟩
    unfold handleEnvelope
    rw [hpong]
    dsimp only
    rw [meters_modify (g := fun p => { p with pingSent := false, timer := some .interval })
      fun _ => rfl, onPulse_own, meters_stopReading, hp, Option.map_some]
  by_cases hhello : env.type = .hello
  · unfold handleEnvelope
    rw [hhello]
    dsimp only
    split_ifs with hexpected
    · split
      · rw [meters_sendError_disconnect, meters_stopReading]
        exact ⟨p, hp, hcalm hpong⟩
      · rename_i hello _
        rcases @meters_handleHello codec i.draws (sv.modify t fun x => { x with reading := none }) t
          hello with hsame | hnext
        · rw [hsame, meters_stopReading]
          exact ⟨p, hp, hcalm hpong⟩
        · rw [hnext, onPulse_own, meters_stopReading, hp, Option.map_some]
          exact ⟨_, rfl, .hello env h hhello (hstate.symm.trans hexpected)⟩
    · rw [meters_stopReading]
      exact ⟨p, hp, hcalm hpong⟩
  by_cases hauth : env.type = .authResponse
  · unfold handleEnvelope
    rw [hauth]
    dsimp only
    split_ifs with hexpected
    · split
      · rw [meters_sendError_disconnect, meters_stopReading]
        exact ⟨p, hp, hcalm hpong⟩
      · rename_i auth _
        rcases @meters_handleAuthResponse codec crypto i.draws
          (sv.modify t fun x => { x with reading := none }) t x auth with hsame | hnext
        · rw [hsame, meters_stopReading]
          exact ⟨p, hp, hcalm hpong⟩
        · rw [hnext, onPulse_own, meters_stopReading, hp, Option.map_some]
          exact ⟨_, rfl, .login env h hauth (hstate.symm.trans hexpected)⟩
    · rw [meters_stopReading]
      exact ⟨p, hp, hcalm hpong⟩
  by_cases hlimited : x.state = .established ∧ env.isLimited codec = true
  · rw [meters_limited hlimited.2 hlimited.1, meters_allowMessage, onPulse_own, meters_stopReading,
      hp, Option.map_some]
    cases hlimiter : x.msgRateLimiter with
    | none => exact ⟨p, rfl, hcalm hpong⟩
    | some limiter =>
      refine ⟨_, rfl, .limited env h hlimited.2 (hstate.symm.trans hlimited.1) limiter ?_⟩
      rw [← hx]
      exact hlimiter
  · rw [meters_handleEnvelope hpong hhello hauth fun hstate =>
      Bool.eq_false_iff.2 fun hchecked => hlimited ⟨hstate, hchecked⟩, meters_stopReading]
    exact ⟨p, hp, hcalm hpong⟩

/-- A frame of another session. -/
theorem pulse_handleEnvelope_other (d : Draws) (env : Envelope) (hne : s ≠ t) :
    (sv.handleEnvelope codec crypto d s x env).meters.pulse t = sv.meters.pulse t := by
  obtain ⟨g, hg⟩ := meters_handleEnvelope_exists codec crypto d sv s x env
  rw [hg, onPulse_other _ _ hne]

theorem pulse_onFrameReceived_other (d : Draws) (data : Bytes) (hne : s ≠ t) :
    (sv.onFrameReceived codec crypto d s x data).meters.pulse t = sv.meters.pulse t := by
  unfold onFrameReceived
  split
  · rw [meters_sendError]
  · exact pulse_handleEnvelope_other d _ hne

/-- No envelope is delivered to a session but by a read of its own. -/
theorem delivered_of_event {env : Envelope} (h : delivered codec t sv i = some env) :
    ∃ data, i.event = .payloadRead t (some data) := by
  obtain ⟨data, hevent, -, -⟩ := delivered_eq_some h
  exact ⟨data, hevent⟩

/-- The messages of `on_session_disconnected`. -/
theorem type_onSessionDisconnected (d : Draws) (sv : Server) (s : SessionId) :
    ∀ e ∈ sv.newlyWritten (sv.onSessionDisconnected codec d s), e.2.type ≠ .ping := by
  have hnone (e : SessionId × Envelope) : e ∉ sv.newlyWritten (sv.unregister s) := by
    rw [newlyWritten_of_append ((written_unregister sv s).trans (List.append_nil _).symm)]
    exact List.not_mem_nil
  intro e he
  unfold onSessionDisconnected at he
  split at he
  · exact absurd he (hnone e)
  · rename_i u _
    dsimp only at he
    split_ifs at he
    · exact absurd he (hnone e)
    · let sv₁ := (sv.unregister s).broadcastPresence codec d ⟨u, .offline⟩ none
      have hvoice := VoiceRoomManager.roomMessage_onDisconnect codec sv₁.findSession sv₁.voice u
      have hbroadcast : sv₁.written = sv.written ++ ((sv.unregister s).broadcastTargets none).map
          fun t => (t, presenceEnvelope codec d ⟨u, .offline⟩) := by
        rw [← written_unregister sv s]
        exact written_broadcast _ _ _
      have hwritten : (sv₁.leaveVoiceRooms codec u).written = sv.written ++ _ :=
        (written_run _ _).trans ((congrArg (· ++ _) hbroadcast).trans (List.append_assoc _ _ _))
      rw [newlyWritten_of_append hwritten] at he
      rcases List.mem_append.1 he with he | he
      · obtain ⟨t, -, rfl⟩ := List.mem_map.1 he
        exact show MessageType.presence ≠ .ping by decide
      · obtain ⟨a, ha, hsent⟩ := List.mem_filterMap.1 he
        cases hvoice a ha with
        | send t type payload found kind =>
          cases hsent
          rintro htype
          rw [show type = .ping from htype] at kind
          exact absurd kind (by decide)

theorem calm_of_event (hp : ∀ data, i.event ≠ .payloadRead t (some data)) :
    ∀ env, delivered codec t sv i = some env → env.type ≠ .pong := by
  intro env henv
  obtain ⟨data, hevent⟩ := delivered_of_event henv
  exact absurd hevent (hp data)

/-- The handler of an expired wait. -/
theorem pulse_onTimer (hp : sv.meters.pulse t = some p) {wait : TimerWait}
    (hevent : i.event = .timerFires t wait) (henabled : sv.enabled (.timerFires t wait) = true) :
    ∃ p', (sv.perform codec crypto i.draws (.timerFires t wait)).meters.pulse t = some p' ∧
      PulseStep codec crypto sv i t p p' := by
  obtain ⟨-, hexpired⟩ := (Bool.and_eq_true _ _).mp henabled
  obtain ⟨x, found, hqueued⟩ := found_of_any hexpired
  have hx : x.pulse = p := Option.some.inj ((pulse_of_found found).symm.trans hp)
  have hmem : wait ∈ p.expired := by
    rw [← hx]
    exact List.contains_iff_mem.1 hqueued
  have htaken : (sv.modify t fun x => { x with expired := x.expired.erase wait }).meters.pulse t =
      some { p with expired := p.expired.erase wait } := by
    rw [meters_modify (g := fun p => { p with expired := p.expired.erase wait }) fun _ => rfl,
      onPulse_own, hp, Option.map_some]
  have hstep : sv.step codec crypto i =
      sv.perform codec crypto i.draws (.timerFires t wait) := by
    unfold step
    rw [hevent, if_pos henabled]
  have hreported (hstate : p.state = .established) (hends : wait = .timeout ∨ p.pingSent = true)
      (hperform : sv.perform codec crypto i.draws (.timerFires t wait) =
        (sv.modify t fun x => { x with expired := x.expired.erase wait }).onSessionDisconnected
          codec i.draws t) :
      ∃ p', (sv.perform codec crypto i.draws (.timerFires t wait)).meters.pulse t = some p' ∧
        PulseStep codec crypto sv i t p p' := by
    refine ⟨_, ?_, .fires wait hevent hmem (fun _ => ⟨hends, ?_⟩) ?_⟩
    · rw [hperform, meters_onSessionDisconnected]
      exact htaken
    · rw [hstep, hperform, disconnected_onSessionDisconnected]
      exact List.mem_cons_self
    · rw [hstep, hperform]
      exact type_onSessionDisconnected i.draws
        (sv.modify t fun x => { x with expired := x.expired.erase wait }) t
  have hperform : sv.perform codec crypto i.draws (.timerFires t wait) =
      sv.onTimer codec i.draws t x wait := by
    unfold perform
    simp only [found]
  by_cases hstate : x.state = .established
  · have hestablished : p.state = .established := by
      rw [← hx]
      exact hstate
    cases wait with
    | timeout =>
      refine hreported hestablished (Or.inl rfl) ?_
      rw [hperform]
      unfold onTimer
      dsimp only
      rw [if_neg (not_not_intro hstate)]
    | interval =>
      by_cases hping : x.pingSent = true
      · refine hreported hestablished (Or.inr ?_) ?_
        · rw [← hx]
          exact hping
        · rw [hperform]
          unfold onTimer
          dsimp only
          rw [if_neg (not_not_intro hstate), if_pos hping]
      · refine ⟨_, ?_, .pings hevent hmem hestablished ?_ x.nextSeq ?_⟩
        · rw [hperform]
          unfold onTimer
          dsimp only
          rw [if_neg (not_not_intro hstate), if_neg hping, meters_send,
            meters_modify (g := fun p => { p with pingSent := true, timer := some .timeout })
              fun _ => rfl, onPulse_own, htaken, Option.map_some]
        · rw [← hx]
          exact Bool.eq_false_iff.2 hping
        · refine newlyWritten_of_append ?_
          rw [hstep, hperform]
          unfold onTimer
          dsimp only
          rw [if_neg (not_not_intro hstate), if_neg hping]
          rfl
  · refine ⟨_, ?_, .fires wait hevent hmem (fun hestablished => ?_) ?_⟩
    · rw [hperform]
      unfold onTimer
      dsimp only
      rw [if_pos hstate]
      exact htaken
    · rw [← hx] at hestablished
      exact absurd hestablished hstate
    · have hnone : sv.newlyWritten (sv.step codec crypto i) = [] := by
        refine newlyWritten_of_append ?_
        rw [hstep, hperform, List.append_nil]
        unfold onTimer
        dsimp only
        rw [if_pos hstate]
        rfl
      rw [hnone]
      exact fun e he => absurd he List.not_mem_nil

/-- The event runs a handler that touches the pulse of `t`. -/
def Touches (t : SessionId) : Event → Prop
  | .handshakeDone s ok => s = t ∧ ok = true
  | .payloadRead s data => s = t ∧ data ≠ none
  | .timerExpires s => s = t
  | .timerFires s _ => s = t
  | .disconnectRuns s => s = t
  | _ => False

theorem pulse_onTimer_other (d : Draws) (wait : TimerWait) (hne : s ≠ t) :
    (sv.onTimer codec d s x wait).meters.pulse t = sv.meters.pulse t := by
  have htaken : (sv.modify s fun x => { x with expired := x.expired.erase wait }).meters.pulse t =
      sv.meters.pulse t := by
    rw [meters_modify (g := fun p => { p with expired := p.expired.erase wait }) fun _ => rfl,
      onPulse_other _ _ hne]
  unfold onTimer
  dsimp only
  split
  · exact htaken
  · cases wait with
    | timeout =>
      dsimp only
      rw [meters_onSessionDisconnected, htaken]
    | interval =>
      dsimp only
      split_ifs
      · rw [meters_onSessionDisconnected, htaken]
      · rw [meters_send, meters_modify (g := fun p =>
          { p with pingSent := true, timer := some .timeout }) fun _ => rfl,
          onPulse_other _ _ hne, htaken]

theorem pulse_onAccept (d : Draws) (ip : Str) (hp : sv.meters.pulse t = some p) :
    (sv.onAccept d ip).meters.pulse t = some p := by
  unfold onAccept
  dsimp only
  split_ifs
  · exact hp
  · exact hp
  · unfold meters at hp ⊢
    obtain ⟨x, found, -⟩ := Option.map_eq_some_iff.1 hp
    rw [← hp]
    dsimp only
    rw [List.getElem?_append_left (List.getElem?_eq_some_iff.1 found).1]

theorem meters_onShutdown : sv.onShutdown.meters = sv.meters := by
  unfold onShutdown
  split_ifs
  · rfl
  · exact meters_foldl (fun _ s => meters_disconnect s) sv.usersBySession.keys
      { sv with shuttingDown := true, accepting := false }

/-- The other handlers leave it alone. -/
theorem pulse_perform (d : Draws) {event : Event} (hp : sv.meters.pulse t = some p)
    (h : ¬ Touches t event) : (sv.perform codec crypto d event).meters.pulse t = some p := by
  have hreported (sv' : Server) (h' : sv'.meters = sv.meters) (s : SessionId) :
      (sv'.onSessionDisconnected codec d s).meters.pulse t = some p := by
    rw [meters_onSessionDisconnected, h', hp]
  cases event with
  | accept ip => exact pulse_onAccept d ip hp
  | acceptError | setMaxConnections | setMsgRate | setMotd | cleanup => exact hp
  | handshakeDone s ok =>
    have hdone : (sv.modify s fun x => { x with handshaking := false }).meters = sv.meters :=
      meters_modify_of_same _ fun _ => rfl
    cases ok with
    | false => exact hreported _ hdone s
    | true =>
      have hne : s ≠ t := fun e => h ⟨e, rfl⟩
      unfold perform onHandshake
      dsimp only
      rw [if_pos rfl, meters_doReadFrameHeader, meters_modify (g := fun p =>
        { p with state := .hello }) fun _ => rfl, onPulse_other _ _ hne, hdone, hp]
  | headerRead s size =>
    unfold perform onHeader
    dsimp only
    cases size with
    | none => exact hreported _ meters_stopReading s
    | some size =>
      dsimp only
      split_ifs
      · exact hreported _ ((meters_sendError _ _).trans meters_stopReading) s
      · exact hreported _ meters_stopReading s
      · have hpayload (sv : Server) : (sv.modify s fun x =>
            { x with reading := some (.payload size.toNat) }).meters = sv.meters :=
          meters_modify_of_same _ fun _ => rfl
        rw [hpayload, meters_stopReading, hp]
  | payloadRead s data =>
    unfold perform
    dsimp only
    split
    · exact hp
    · unfold onPayload
      cases data with
      | none => exact hreported _ meters_stopReading s
      | some data =>
        have hne : s ≠ t := fun e => h ⟨e, Option.some_ne_none _⟩
        dsimp only
        rw [meters_doReadFrameHeader, pulse_onFrameReceived_other d data hne, meters_stopReading,
          hp]
  | writeDone s ok =>
    have hdone : (sv.modify s fun x => { x with writes := x.writes - 1 }).meters = sv.meters :=
      meters_modify_of_same _ fun _ => rfl
    unfold perform onWritten
    dsimp only
    split_ifs
    · rw [hdone, hp]
    · exact hreported _ hdone s
  | disconnectRuns s =>
    have hne : s ≠ t := h
    unfold perform onDisconnect
    rw [meters_modify (g := fun p => { p with state := .dead, timer := none }) fun _ => rfl,
      onPulse_other _ _ hne, hp]
  | timerExpires s =>
    have hne : s ≠ t := h
    unfold perform
    dsimp only
    rw [meters_modify (g := fun p =>
      { p with timer := none, expired := p.expired ++ p.timer.toList }) fun _ => rfl,
      onPulse_other _ _ hne, hp]
  | timerFires s wait =>
    have hne : s ≠ t := h
    unfold perform
    dsimp only
    split
    · exact hp
    · rw [pulse_onTimer_other d wait hne, hp]
  | adminDisconnect userId =>
    unfold perform
    dsimp only
    split_ifs
    · exact hp
    · split
      · exact hp
      · rw [meters_disconnect, hp]
  | shutdown =>
    unfold perform
    rw [meters_onShutdown, hp]

variable (codec crypto) in
/-- A step does one of these. -/
theorem step_pulse (hwf : WellFormed sv) (hp : sv.meters.pulse t = some p) :
    ∃ p', (sv.step codec crypto i).meters.pulse t = some p' ∧
      PulseStep codec crypto sv i t p p' := by
  by_cases henabled : sv.enabled i.event = true
  swap
  · have hidle : sv.step codec crypto i = sv := by
      unfold step
      rw [if_neg henabled]
    refine ⟨p, by rw [hidle]; exact hp, .same (fun env henv => ?_) fun _ _ => hidle⟩
    obtain ⟨-, -, hcontra, -⟩ := delivered_eq_some henv
    exact absurd hcontra henabled
  have hstep : sv.step codec crypto i = sv.perform codec crypto i.draws i.event := by
    unfold step
    rw [if_pos henabled]
  by_cases htouches : Touches t i.event
  swap
  · refine ⟨p, hstep ▸ pulse_perform i.draws hp htouches, .same (calm_of_event ?_) ?_⟩
    · intro data hevent
      exact htouches (by rw [hevent]; exact ⟨rfl, Option.some_ne_none _⟩)
    · intro wait hevent
      exact absurd (by rw [hevent]; exact rfl) htouches
  cases hevent : i.event with
  | handshakeDone s ok =>
    rw [hevent] at htouches henabled hstep
    obtain ⟨rfl, rfl⟩ := htouches
    obtain ⟨x, found, hbusy⟩ := found_of_any henabled
    have hnew := hwf.fresh s x found hbusy
    refine ⟨_, ?_, .opens (Option.some.inj (hp.symm.trans ?_)) hevent⟩
    · have hdone : (sv.modify s fun x => { x with handshaking := false }).meters = sv.meters :=
        meters_modify_of_same _ fun _ => rfl
      rw [hstep]
      unfold perform onHandshake
      dsimp only
      rw [if_pos rfl, meters_doReadFrameHeader, meters_modify (g := fun p =>
        { p with state := .hello }) fun _ => rfl, onPulse_own, hdone, hp, Option.map_some]
    · rw [pulse_of_found found, hnew]
  | payloadRead s data =>
    rw [hevent] at htouches henabled hstep
    obtain ⟨rfl, hdata⟩ := htouches
    obtain ⟨data, rfl⟩ := Option.ne_none_iff_exists'.1 hdata
    cases hparse : codec.envelope.parse data with
    | some env =>
      exact pulse_of_delivered hp ((delivered_of_enabled hevent henabled).trans hparse)
    | none =>
      obtain ⟨x, found, -⟩ := found_of_any henabled
      refine ⟨p, ?_, .same (fun env henv => ?_) fun wait hfires => ?_⟩
      · rw [hstep]
        unfold perform
        simp only [found]
        unfold onPayload onFrameReceived
        dsimp only
        rw [hparse, meters_doReadFrameHeader, meters_sendError, meters_stopReading, hp]
      · rw [delivered_of_enabled hevent henabled, hparse] at henv
        cases henv
      · cases hevent.symm.trans hfires
  | timerExpires s =>
    rw [hevent] at htouches hstep
    obtain rfl : s = t := htouches
    refine ⟨_, ?_, .expires hevent⟩
    rw [hstep]
    unfold perform
    dsimp only
    rw [meters_modify (g := fun p =>
      { p with timer := none, expired := p.expired ++ p.timer.toList }) fun _ => rfl, onPulse_own,
      hp, Option.map_some]
  | timerFires s wait =>
    rw [hevent] at htouches hstep henabled
    obtain rfl : s = t := htouches
    rw [hstep]
    exact pulse_onTimer hp hevent henabled
  | disconnectRuns s =>
    rw [hevent] at htouches hstep
    obtain rfl : s = t := htouches
    refine ⟨_, ?_, .closed hevent⟩
    rw [hstep]
    unfold perform onDisconnect
    rw [meters_modify (g := fun p => { p with state := .dead, timer := none }) fun _ => rfl,
      onPulse_own, hp, Option.map_some]
  | _ =>
    rw [hevent] at htouches
    exact htouches.elim

/-- A session that a step adds has the pulse of a new one. -/
theorem step_pulse_new {p' : Pulse} (hnone : sv.meters.pulse t = none)
    (hp' : (sv.step codec crypto i).meters.pulse t = some p') : p' = Session.new.pulse := by
  have hcore : sv.core t = none := by
    unfold core
    exact Option.map_eq_none_iff.2 (Option.map_eq_none_iff.1 hnone)
  obtain ⟨x, found, rfl⟩ := Option.map_eq_some_iff.1 hp'
  have hsome := core_of_sessions found
  have hmap {sv₁ sv₂ : Server} {s : SessionId} {g : SessionCore → SessionCore}
      (h : ∀ t, sv₂.core t = if s = t then (sv₁.core t).map g else sv₁.core t)
      (h₁ : sv₁.core t = none) : sv₂.core t = none := by
    rw [h, h₁]
    split_ifs <;> rfl
  have hcontra (h : (sv.step codec crypto i).core t = none) : x.pulse = Session.new.pulse := by
    cases h.symm.trans hsome
  cases step_effect codec crypto sv i with
  | background quiet => exact hcontra ((quiet.core t).trans hcore)
  | session s x g found alive fresh step moves => exact hcontra (hmap moves.core hcore)
  | auth s x auth found size reads state received presents authenticates =>
    exact hcontra (hmap authenticates.core hcore)
  | teardown s x sv₁ g found call alive completes fresh moves quiet =>
    exact hcontra (hmap (core_of_teardown moves quiet) hcore)
  | accept sessions sessionsByUser usersBySession =>
    rcases sessions_of_accept sessions found with hold | ⟨-, rfl⟩
    · cases (core_of_sessions hold).symm.trans hcore
    · rfl
  | shutdown event first core => exact hcontra ((core t).trans hcore)

end Step

end Server

end Ircord

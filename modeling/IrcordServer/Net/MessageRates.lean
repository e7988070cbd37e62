import IrcordServer.Metering
import IrcordServer.Net.Fanout
import IrcordServer.Net.Pulses

/-!
# How fast a client may send, and connect

The limiter of a session is made at its login, and asked about each chat message, voice signal and
chunk of a file.  The listener keeps a limiter for each address, made at the first connection from
there.
-/

open Container Run

namespace Ircord.Server

section Definitions

variable (codec : Codec) (t : SessionId) (ip : Str) (sv : Server) (i : Input)

/-- The limiter that is asked about a frame of `t` in the step. -/
def askedFor : Option RateLimiter :=
  match delivered codec t sv i, sv.meters.pulse t with
  | some env, some p =>
    if p.state = .established ∧ env.isLimited codec = true then p.limiter else none
  | _, _ => none

/-- A frame of `t` passes its limiter in the step. -/
def admittedFrame : Option Time :=
  RateLimiter.admittedAt (askedFor codec t) (fun i => i.draws.now) sv i

/-- The limiter that is asked about a connection from `ip` in the step. -/
def askedForIp : Option RateLimiter :=
  match i.event with
  | .accept peer =>
    if peer = ip ∧ sv.accepting = true ∧ sv.activeConnections < sv.maxConnections then
      some ((sv.ipRateMap.lookup ip).getD (.new sv.connRatePerMin (minutes 1) i.draws.now))
    else none
  | _ => none

/-- A connection from `ip` passes its limiter in the step. -/
def admittedConnection : Option Time :=
  RateLimiter.admittedAt (askedForIp ip) (fun i => i.draws.now) sv i

end Definitions

variable {codec : Codec} {crypto : Crypto} {sv : Server} {i : Input} {t : SessionId} {ip : Str}
  {x : Session} {p p' : Pulse}

/-! ## The limiter of a session -/

/-- Before its login a session has no limiter. -/
def Unlimited (p : Pulse) : Prop :=
  p.state = .handshake ∨ p.state = .hello ∨ p.state = .authPending → p.limiter = none

theorem unlimited_step (h : PulseStep codec crypto sv i t p p') (hp : Unlimited p) :
    Unlimited p' := by
  cases h with
  | same => exact hp
  | opens fresh =>
    rw [fresh]
    exact fun _ => rfl
  | hello env received type state => exact fun _ => hp (Or.inr (Or.inl state))
  | login => exact fun hearly => by simp [started] at hearly
  | pong => exact hp
  | limited env received checked state => exact fun hearly => by simp [state] at hearly
  | expires => exact hp
  | fires => exact hp
  | pings event queued state => exact hp
  | closed => exact fun hearly => by simp at hearly

theorem askedFor_eq_some {l : RateLimiter} (hp : sv.meters.pulse t = some p)
    (h : askedFor codec t sv i = some l) :
    ∃ env, delivered codec t sv i = some env ∧ p.state = .established ∧
      env.isLimited codec = true ∧ p.limiter = some l := by
  unfold askedFor at h
  rw [hp] at h
  split at h
  · rename_i env p hdelivered hsome
    cases hsome
    split_ifs at h with hchecked
    exact ⟨env, hdelivered, hchecked.1, hchecked.2, h⟩
  · cases h

/-- The limiter counts the frame. -/
theorem pulse_of_asked {l : RateLimiter} (hp : sv.meters.pulse t = some p)
    (h : askedFor codec t sv i = some l) : (sv.step codec crypto i).meters.pulse t =
      some { p with limiter := some (l.allow i.draws.now).2 } := by
  obtain ⟨env, hdelivered, hestablished, hlimited, hlimiter⟩ := askedFor_eq_some hp h
  obtain ⟨x, found, hstep⟩ := @step_of_delivered codec crypto sv t i env hdelivered
  have hx : x.pulse = p := Option.some.inj ((pulse_of_found found).symm.trans hp)
  have hown : x.msgRateLimiter = some l := (congrArg Pulse.limiter hx).trans hlimiter
  rw [hstep, meters_doReadFrameHeader,
    meters_limited hlimited ((congrArg Pulse.state hx).trans hestablished), meters_allowMessage,
    onPulse_own, meters_stopReading, hp, hown, Option.map_some]
  rfl

/-- What a step does with the limiter of a session. -/
theorem meters_frame (hp : sv.meters.pulse t = some p) (hunlimited : Unlimited p)
    (hp' : (sv.step codec crypto i).meters.pulse t = some p')
    (h : PulseStep codec crypto sv i t p p') :
    RateLimiter.Meters sv.msgRatePerSec (seconds 1) i.draws.now p.limiter
      (askedFor codec t sv i) p'.limiter := by
  cases hasked : askedFor codec t sv i with
  | some l =>
    obtain ⟨-, -, -, -, hlimiter⟩ := askedFor_eq_some hp hasked
    cases hp'.symm.trans (pulse_of_asked hp hasked)
    rw [hlimiter]
    exact .asks l
  | none =>
    cases h with
    | login env received type state =>
      rw [hunlimited (Or.inr (Or.inr state))]
      exact .makes
    | limited env received checked state limiter own =>
      unfold askedFor at hasked
      rw [received, hp] at hasked
      dsimp only at hasked
      rw [if_pos ⟨state, checked⟩, own] at hasked
      cases hasked
    | same => exact .idle _
    | opens => exact .idle _
    | hello => exact .idle _
    | pong => exact .idle _
    | expires => exact .idle _
    | fires => exact .idle _
    | pings => exact .idle _
    | closed => exact .idle _

/-- The limiter of `t`, if it has one. -/
def limiterOf (t : SessionId) (sv : Server) : Option RateLimiter :=
  (sv.meters.pulse t).bind Pulse.limiter

/-- No session has a limiter before its login. -/
def LimitedLate (t : SessionId) (sv : Server) : Prop :=
  WellFormed sv ∧ ∀ p, sv.meters.pulse t = some p → Unlimited p

theorem limitedLate_step (h : LimitedLate t sv) : LimitedLate t (sv.step codec crypto i) := by
  obtain ⟨hwf, hlate⟩ := h
  refine ⟨wellFormed_step codec crypto i hwf, fun p' hp' => ?_⟩
  cases hp : sv.meters.pulse t with
  | none =>
    rw [step_pulse_new hp hp']
    exact fun _ => rfl
  | some p =>
    obtain ⟨q, hq, hstep⟩ := step_pulse codec crypto (i := i) hwf hp
    cases hq.symm.trans hp'
    exact unlimited_step hstep (hlate p hp)

theorem meters_limiterOf (h : LimitedLate t sv) :
    RateLimiter.Meters sv.msgRatePerSec (seconds 1) i.draws.now (limiterOf t sv)
      (askedFor codec t sv i) (limiterOf t (sv.step codec crypto i)) := by
  obtain ⟨hwf, hlate⟩ := h
  unfold limiterOf
  cases hp : sv.meters.pulse t with
  | none =>
    have hnone : askedFor codec t sv i = none := by
      unfold askedFor
      rw [hp]
      split <;> first | rfl | contradiction
    have hafter : ((sv.step codec crypto i).meters.pulse t).bind Pulse.limiter = none := by
      cases hp' : (sv.step codec crypto i).meters.pulse t with
      | none => rfl
      | some p' =>
        rw [step_pulse_new hp hp']
        rfl
    rw [hnone, hafter, Option.bind_none]
    exact .idle none
  | some p =>
    obtain ⟨p', hp', hstep⟩ := step_pulse codec crypto (i := i) hwf hp
    rw [hp', Option.bind_some, Option.bind_some]
    exact meters_frame hp (hlate p hp) hp' hstep

/-! ## A frame that is refused -/

theorem modify_modify (sv : Server) (t : SessionId) (f g : Session → Session) :
    (sv.modify t f).modify t g = sv.modify t (g ∘ f) := by
  unfold modify
  rw [List.modify_modify_eq]

/-- What a session keeps when a frame of it is refused. -/
def KeepsSession (f : Session → Session) : Prop :=
  ∀ x, (f x).state = x.state ∧ (f x).userId = x.userId ∧
    (f x).activeUploads = x.activeUploads ∧ (f x).disconnects = x.disconnects ∧
    (f x).pingSent = x.pingSent ∧ (f x).timer = x.timer ∧ (f x).expired = x.expired

/-- The step answers `t` with an error, and does nothing else. -/
def AnswersError (t : SessionId) (sv sv' : Server) : Prop :=
  ∃ f env, sv' = { sv.modify t f with written := sv.written ++ [(t, env)] } ∧ KeepsSession f ∧
    (env.type = .error ∨ env.type = .fileError)

theorem KeepsSession.comp {f g : Session → Session} (hf : KeepsSession f) (hg : KeepsSession g) :
    KeepsSession (g ∘ f) := by
  intro x
  obtain ⟨h₁, h₂, h₃, h₄, h₅, h₆, h₇⟩ := hf x
  obtain ⟨k₁, k₂, k₃, k₄, k₅, k₆, k₇⟩ := hg (f x)
  exact ⟨k₁.trans h₁, k₂.trans h₂, k₃.trans h₃, k₄.trans h₄, k₅.trans h₅, k₆.trans h₆, k₇.trans h₇⟩

theorem answersError_of_reply (found : sv.sessions[t]? = some x) {f : Session → Session}
    (hf : KeepsSession f) (d : Draws) {type : MessageType}
    (htype : type = .error ∨ type = .fileError) (payload : Bytes) : AnswersError t sv
      (((sv.modify t f).sendEnvelope d t type payload).doReadFrameHeader t) := by
  have hfound : (sv.modify t f).sessions[t]? = some (f x) := by
    rw [sessions_modify, if_pos rfl, found, Option.map_some]
  have hwrites : KeepsSession fun x : Session => { x with writes := x.writes + 1 } :=
    fun _ => ⟨rfl, rfl, rfl, rfl, rfl, rfl, rfl⟩
  have hseq : KeepsSession fun x : Session => { x with nextSeq := x.nextSeq + 1 } :=
    fun _ => ⟨rfl, rfl, rfl, rfl, rfl, rfl, rfl⟩
  have hread : KeepsSession fun x : Session =>
      if x.state = .dead then x else { x with reading := some .header } := by
    intro x
    dsimp only
    split_ifs <;> exact ⟨rfl, rfl, rfl, rfl, rfl, rfl, rfl⟩
  refine ⟨_, ⟨(f x).nextSeq, d.nowMs, type, payload⟩, ?_,
    ((hf.comp hseq).comp hwrites).comp hread, htype⟩
  unfold sendEnvelope
  rw [hfound]
  dsimp only
  unfold send doReadFrameHeader
  rw [← modify_modify, ← modify_modify, ← modify_modify]
  rfl

/-- The answer to a limited envelope that its limiter does not let pass. -/
theorem handleEnvelope_refused {env : Envelope} (hlimited : env.isLimited codec = true)
    (hstate : x.state = .established) (hrefused : (sv.allowMessage i.draws t x).1 = false) :
    ∃ type payload, (type = .error ∨ type = .fileError) ∧
      sv.handleEnvelope codec crypto i.draws t x env =
        (sv.allowMessage i.draws t x).2.sendEnvelope i.draws t type payload := by
  have hifAllowed (handled : Server → Server) : ∃ payload,
      sv.ifAllowed codec i.draws t x handled =
        (sv.allowMessage i.draws t x).2.sendEnvelope i.draws t .error payload := by
    unfold ifAllowed
    revert hrefused
    rcases sv.allowMessage i.draws t x with ⟨allowed, sv₁⟩
    rintro rfl
    exact ⟨_, rfl⟩
  unfold handleEnvelope
  cases htype : env.type with
  | chatEnvelope =>
    dsimp only [ifAuthenticated]
    rw [if_pos hstate]
    obtain ⟨payload, heq⟩ := hifAllowed _
    exact ⟨_, payload, Or.inl rfl, heq⟩
  | voiceSignal =>
    dsimp only [ifAuthenticated]
    rw [if_pos hstate]
    obtain ⟨payload, heq⟩ := hifAllowed _
    exact ⟨_, payload, Or.inl rfl, heq⟩
  | fileUpload =>
    obtain ⟨hpayload, chunk, hchunk⟩ := chunk_of_isLimited hlimited htype
    dsimp only [ifAuthenticated]
    rw [if_pos hstate]
    unfold handleFileUploadPayload
    rw [hpayload, if_neg Bool.false_ne_true, hchunk]
    dsimp only
    unfold handleFileUpload
    revert hrefused
    rcases sv.allowMessage i.draws t x with ⟨allowed, sv₁⟩
    rintro rfl
    exact ⟨_, _, Or.inr rfl, rfl⟩
  | _ =>
    unfold Envelope.isLimited at hlimited
    rw [htype] at hlimited
    cases hlimited

theorem answersError_of_refused {l : RateLimiter} (hp : sv.meters.pulse t = some p)
    (h : askedFor codec t sv i = some l) (hrefused : l.allowedAt i.draws.now = none) :
    AnswersError t sv (sv.step codec crypto i) := by
  obtain ⟨env, hdelivered, hestablished, hlimited, hlimiter⟩ := askedFor_eq_some hp h
  obtain ⟨x, found, hstep⟩ := @step_of_delivered codec crypto sv t i env hdelivered
  have hx : x.pulse = p := Option.some.inj ((pulse_of_found found).symm.trans hp)
  have hown : x.msgRateLimiter = some l := (congrArg Pulse.limiter hx).trans hlimiter
  have hallow (sv : Server) : sv.allowMessage i.draws t x = ((l.allow i.draws.now).1,
      sv.modify t fun x => { x with msgRateLimiter := some (l.allow i.draws.now).2 }) := by
    unfold allowMessage
    rw [hown]
  have hdenied : (l.allow i.draws.now).1 = false := by
    refine Bool.eq_false_iff.2 fun hallowed => ?_
    unfold RateLimiter.allowedAt at hrefused
    rw [if_pos hallowed] at hrefused
    cases hrefused
  obtain ⟨type, payload, htype, heq⟩ := @handleEnvelope_refused codec crypto
    (sv.modify t fun x => { x with reading := none }) i t x env hlimited
    ((congrArg Pulse.state hx).trans hestablished) (by rw [hallow]; exact hdenied)
  rw [hstep, heq, hallow]
  dsimp only
  rw [modify_modify]
  have hstops : KeepsSession fun x : Session => { x with reading := none } :=
    fun _ => ⟨rfl, rfl, rfl, rfl, rfl, rfl, rfl⟩
  have hcounts : KeepsSession fun x : Session =>
      { x with msgRateLimiter := some (l.allow i.draws.now).2 } :=
    fun _ => ⟨rfl, rfl, rfl, rfl, rfl, rfl, rfl⟩
  exact answersError_of_reply found (hstops.comp hcounts) _ htype payload

/-- While the rate stays between `low` and `high`, at most twice `high` messages of a session pass
its limiter in any second, and one that does not pass finds `low` that passed in the second before,
is answered with an error, and has no other effect. -/
theorem messages_limited (codec : Codec) (crypto : Crypto) (config : Config) (db : Database)
    (t : SessionId) (is : List Input) {low high : ℤ}
    (hclock : (is.map fun i => i.draws.now).Pairwise (· ≤ ·))
    (hrate : AllStates (step codec crypto)
      (fun sv => low ≤ sv.msgRatePerSec ∧ sv.msgRatePerSec ≤ high) (start config db) is) :
    (∀ u, (((observe (step codec crypto) (admittedFrame codec t) (start config db) is).countP
        fun time => u ≤ time ∧ time ≤ u + seconds 1 : ℕ) : ℤ) ≤ 2 * max high 0) ∧
      ∀ pre i post, is = pre ++ i :: post →
        let sv := final (step codec crypto) (start config db) pre
        ∀ l, askedFor codec t sv i = some l → l.allowedAt i.draws.now = none →
          low ≤ (((observe (step codec crypto) (admittedFrame codec t) (start config db) pre).countP
            fun time => i.draws.now - seconds 1 < time : ℕ) : ℤ) ∧
          AnswersError t sv (sv.step codec crypto i) := by
  have hlate : LimitedLate t (start config db) := ⟨wellFormed_start config db, nofun⟩
  obtain ⟨hbounded, hjustified⟩ := RateLimiter.rate_run (limiterOf t)
    (show 0 < seconds 1 by decide) rfl hlate (fun _ _ h => limitedLate_step h)
    (fun _ _ h => meters_limiterOf h) is hclock hrate
  refine ⟨hbounded, ?_⟩
  intro pre i post hsplit sv l hasked hrefused
  refine ⟨hjustified pre i post hsplit l hasked hrefused, ?_⟩
  cases hp : sv.meters.pulse t with
  | none =>
    unfold askedFor at hasked
    rw [hp] at hasked
    split at hasked <;> contradiction
  | some p => exact answersError_of_refused hp hasked hrefused

/-- `alice` logs in and writes two messages at once, at a rate of one a second. -/
def hastyRun : List Input :=
  let chat := frameEvents 0 .chatEnvelope
    (Codec.proto3.chatEnvelope.serialize ⟨str "alice", str "bob"⟩)
  (loginEvents 0 (str "alice") aliceSignature ++ chat ++ chat).map Event.atZero

theorem messages_limited_hastyRun :
    let sv := start ⟨10, 10, 1, []⟩ .empty
    observe (step .proto3 aliceBobCrypto) (admittedFrame .proto3 0) sv hastyRun = [0] ∧
      (∀ u, ((([0] : List Time).countP
        fun time => u ≤ time ∧ time ≤ u + seconds 1 : ℕ) : ℤ) ≤ 2 * max 1 0) := by
  intro sv
  have hadmitted : observe (step .proto3 aliceBobCrypto) (admittedFrame .proto3 0) sv hastyRun =
      [0] := by decide +kernel
  obtain ⟨hbounded, -⟩ := @messages_limited .proto3 aliceBobCrypto ⟨10, 10, 1, []⟩ .empty 0
    hastyRun 1 1 (by decide +kernel) (by decide +kernel)
  rw [hadmitted] at hbounded
  exact ⟨hadmitted, hbounded⟩

/-! ## The limiter of an address -/

/-- What the listener limits by. -/
def limits (sv : Server) : UnorderedMap Str RateLimiter × ℤ := (sv.ipRateMap, sv.connRatePerMin)

theorem limits_of_meters {sv' : Server} {s : SessionId} {g : Pulse → Pulse}
    (h : sv'.meters = sv.meters.onPulse s g) : sv'.limits = sv.limits :=
  congrArg (fun m => (m.ipRateMap, m.connRatePerMin)) h

theorem limits_of_same {sv' : Server} (h : sv'.meters = sv.meters) : sv'.limits = sv.limits :=
  congrArg (fun m => (m.ipRateMap, m.connRatePerMin)) h

theorem limits_modify {s : SessionId} {f : Session → Session} :
    (sv.modify s f).limits = sv.limits := rfl

theorem limits_onTimer (d : Draws) (s : SessionId) (wait : TimerWait) :
    (sv.onTimer codec d s x wait).limits = sv.limits := by
  have hreported (sv : Server) : (sv.onSessionDisconnected codec d s).limits = sv.limits :=
    limits_of_same meters_onSessionDisconnected
  unfold onTimer
  dsimp only
  split
  · rfl
  · cases wait with
    | timeout => exact hreported _
    | interval =>
      dsimp only
      split_ifs
      · exact hreported _
      · rfl

/-- Only a connection and an administrator touch them. -/
theorem limits_perform (d : Draws) {event : Event} (haccept : ∀ ip, event ≠ .accept ip)
    (hrate : ∀ rate, event ≠ .setMsgRate rate) :
    (sv.perform codec crypto d event).limits = sv.limits := by
  have hreported (sv : Server) (s : SessionId) :
      (sv.onSessionDisconnected codec d s).limits = sv.limits :=
    limits_of_same meters_onSessionDisconnected
  have hread (sv : Server) (s : SessionId) : (sv.doReadFrameHeader s).limits = sv.limits :=
    limits_of_same meters_doReadFrameHeader
  have herror (sv : Server) (s : SessionId) (code : UInt32) (message : String) :
      (sv.sendError codec d s code message).limits = sv.limits :=
    limits_of_same (meters_sendError _ _)
  cases event with
  | accept ip => exact absurd rfl (haccept ip)
  | setMsgRate rate => exact absurd rfl (hrate rate)
  | acceptError | setMaxConnections | setMotd | cleanup => rfl
  | handshakeDone s ok =>
    unfold perform onHandshake
    dsimp only
    split_ifs
    · exact hread _ s
    · exact hreported _ s
  | headerRead s size =>
    unfold perform onHeader
    cases size with
    | none => exact hreported _ s
    | some size =>
      dsimp only
      split_ifs
      · exact (hreported _ s).trans (herror _ _ _ _)
      · exact hreported _ s
      · rfl
  | payloadRead s data =>
    unfold perform
    dsimp only
    split
    · rfl
    · rename_i x _
      unfold onPayload
      cases data with
      | none => exact hreported _ s
      | some data =>
        refine (hread _ s).trans ?_
        unfold onFrameReceived
        split
        · exact herror _ _ _ _
        · rename_i env _
          obtain ⟨g, hg⟩ := meters_handleEnvelope_exists codec crypto d
            (sv.modify s fun x => { x with reading := none }) s x env
          exact (limits_of_meters hg).trans limits_modify
  | writeDone s ok =>
    unfold perform onWritten
    dsimp only
    split_ifs
    · rfl
    · exact hreported _ s
  | disconnectRuns s => rfl
  | timerExpires s => rfl
  | timerFires s wait =>
    unfold perform
    dsimp only
    split
    · rfl
    · exact limits_onTimer d s wait
  | adminDisconnect userId =>
    unfold perform
    dsimp only
    split_ifs
    · rfl
    · split <;> rfl
  | shutdown => exact limits_of_same meters_onShutdown

theorem limits_step (haccept : ∀ ip, i.event ≠ .accept ip)
    (hrate : ∀ rate, i.event ≠ .setMsgRate rate) :
    (sv.step codec crypto i).limits = sv.limits := by
  unfold step
  split_ifs
  · exact limits_perform i.draws haccept hrate
  · rfl

/-- The rate stays as it was configured until an administrator sets the rate for messages. -/
theorem connRatePerMin_step (hrate : ∀ rate, i.event ≠ .setMsgRate rate) :
    (sv.step codec crypto i).connRatePerMin = sv.connRatePerMin := by
  by_cases haccept : ∃ ip, i.event = .accept ip
  · obtain ⟨ip, hevent⟩ := haccept
    unfold step perform onAccept
    rw [hevent]
    dsimp only
    split_ifs <;> rfl
  · have hlimits : (sv.step codec crypto i).limits = sv.limits :=
      limits_step (fun ip hevent => haccept ⟨ip, hevent⟩) hrate
    exact congrArg Prod.snd hlimits

theorem connRatePerMin_setMsgRate {rate : ℤ} (hevent : i.event = .setMsgRate rate) :
    (sv.step codec crypto i).connRatePerMin = -1 := by
  unfold step perform
  rw [hevent]
  rfl

/-- The limiter of an address, which a first connection makes. -/
def limiterFor (sv : Server) (d : Draws) (ip : Str) : RateLimiter :=
  (sv.ipRateMap.lookup ip).getD (.new sv.connRatePerMin (minutes 1) d.now)

theorem onAccept_of_room (d : Draws) (ip : Str) (hroom : sv.activeConnections < sv.maxConnections) :
    (sv.onAccept d ip).ipRateMap =
        sv.ipRateMap.insert ip ((sv.limiterFor d ip).allow d.now).2 ∧
      (sv.onAccept d ip).sessions = sv.sessions ++
        ((sv.limiterFor d ip).allowedAt d.now).toList.map fun _ => Session.new := by
  unfold onAccept
  dsimp only
  rw [if_neg (not_le.2 hroom)]
  change (ite ((!((sv.limiterFor d ip).allow d.now).1) = true) _ _ : Server).ipRateMap = _ ∧
    (ite ((!((sv.limiterFor d ip).allow d.now).1) = true) _ _ : Server).sessions = _
  unfold RateLimiter.allowedAt
  cases ((sv.limiterFor d ip).allow d.now).1 with
  | true => exact ⟨rfl, rfl⟩
  | false => exact ⟨rfl, (List.append_nil _).symm⟩

theorem askedForIp_eq_some {l : RateLimiter} (h : askedForIp ip sv i = some l) :
    i.event = .accept ip ∧ sv.accepting = true ∧ sv.activeConnections < sv.maxConnections ∧
      l = sv.limiterFor i.draws ip := by
  unfold askedForIp at h
  split at h
  · rename_i peer hevent
    split_ifs at h with hasked
    obtain ⟨rfl, haccepting, hroom⟩ := hasked
    exact ⟨hevent, haccepting, hroom, (Option.some.inj h).symm⟩
  · cases h

/-- A connection that its limiter is asked about is a new session, or goes no further. -/
theorem sessions_of_asked {l : RateLimiter} (h : askedForIp ip sv i = some l) :
    (sv.step codec crypto i).ipRateMap =
        sv.ipRateMap.insert ip (l.allow i.draws.now).2 ∧
      (sv.step codec crypto i).sessions =
        sv.sessions ++ (l.allowedAt i.draws.now).toList.map fun _ => Session.new := by
  obtain ⟨hevent, haccepting, hroom, rfl⟩ := askedForIp_eq_some h
  have hstep : sv.step codec crypto i = sv.onAccept i.draws ip := by
    unfold step perform enabled
    rw [hevent]
    exact if_pos haccepting
  rw [hstep]
  exact onAccept_of_room i.draws ip hroom

/-- What a step does with the limiter of an address. -/
theorem meters_ip (ip : Str) (i : Input) :
    RateLimiter.Meters sv.connRatePerMin (minutes 1) i.draws.now (sv.ipRateMap.lookup ip)
      (askedForIp ip sv i) ((sv.step codec crypto i).ipRateMap.lookup ip) := by
  cases hasked : askedForIp ip sv i with
  | some l =>
    obtain ⟨-, -, -, hl⟩ := askedForIp_eq_some hasked
    rw [(@sessions_of_asked codec crypto _ _ _ _ hasked).1, UnorderedMap.lookup_insert_ite,
      if_pos rfl, hl]
    unfold limiterFor
    cases sv.ipRateMap.lookup ip with
    | none => exact .makesAndAsks
    | some l => exact .asks l
  | none =>
    have hsame : (sv.step codec crypto i).ipRateMap.lookup ip = sv.ipRateMap.lookup ip := by
      cases hevent : i.event with
      | accept peer =>
        cases hother : askedForIp peer sv i with
        | some l =>
          have hne : ip ≠ peer := by
            rintro rfl
            cases hasked.symm.trans hother
          rw [(@sessions_of_asked codec crypto _ _ _ _ hother).1, UnorderedMap.lookup_insert_ite,
            if_neg hne]
        | none =>
          unfold askedForIp at hother
          rw [hevent] at hother
          dsimp only at hother
          split_ifs at hother with hroom
          unfold step perform enabled onAccept
          rw [hevent]
          dsimp only
          split_ifs with haccepting hfull
          · rfl
          · exact absurd ⟨rfl, haccepting, not_le.1 hfull⟩ hroom
          · exact absurd ⟨rfl, haccepting, not_le.1 hfull⟩ hroom
          · rfl
      | setMsgRate rate =>
        unfold step perform
        rw [hevent]
        rfl
      | _ =>
        have hlimits : (sv.step codec crypto i).limits = sv.limits :=
          limits_step (by rw [hevent]; nofun) (by rw [hevent]; nofun)
        exact congrArg (fun m : UnorderedMap Str RateLimiter × ℤ => m.1.lookup ip) hlimits
    rw [hsame]
    exact .idle _

theorem rate_of_address (codec : Codec) (crypto : Crypto) (config : Config) (db : Database)
    (ip : Str) (is : List Input) {low high : ℤ}
    (hclock : (is.map fun i => i.draws.now).Pairwise (· ≤ ·))
    (hrate : AllStates (step codec crypto)
      (fun sv => low ≤ sv.connRatePerMin ∧ sv.connRatePerMin ≤ high) (start config db) is) :
    (∀ u, (((observe (step codec crypto) (admittedConnection ip) (start config db) is).countP
        fun time => u ≤ time ∧ time ≤ u + minutes 1 : ℕ) : ℤ) ≤ 2 * max high 0) ∧
      ∀ pre i post, is = pre ++ i :: post → ∀ l,
        askedForIp ip (final (step codec crypto) (start config db) pre) i = some l →
        l.allowedAt i.draws.now = none →
          low ≤ (((observe (step codec crypto) (admittedConnection ip) (start config db)
            pre).countP fun time => i.draws.now - minutes 1 < time : ℕ) : ℤ) :=
  RateLimiter.rate_run (I := fun _ => True) (fun sv => sv.ipRateMap.lookup ip)
    (show 0 < minutes 1 by decide) rfl trivial (fun _ _ _ => trivial)
    (fun _ i _ => meters_ip ip i) is hclock hrate

/-- Nobody has set a rate yet. -/
theorem connRatePerMin_final {config : Config} {db : Database} {is : List Input}
    (hunset : ∀ j ∈ is, ∀ rate, j.event ≠ .setMsgRate rate) :
    AllStates (step codec crypto) (fun sv => sv.connRatePerMin = config.connRatePerMin)
      (start config db) is := by
  refine .of_steps rfl (fun sv i h hkept => (connRatePerMin_step hkept).trans h) ?_
  refine allSteps_iff.2 fun pre i post hsplit => hunset i ?_
  rw [hsplit]
  exact List.mem_append_right pre List.mem_cons_self

theorem connRatePerMin_cases (config : Config) (db : Database) (is : List Input) :
    AllStates (step codec crypto)
      (fun sv => sv.connRatePerMin = config.connRatePerMin ∨ sv.connRatePerMin = -1)
      (start config db) is := by
  let P (sv : Server) : Prop :=
    sv.connRatePerMin = config.connRatePerMin ∨ sv.connRatePerMin = -1
  refine AllStates.of_invariant (show P (start config db) from Or.inl rfl) (fun sv i h => ?_) is
  by_cases hset : ∃ rate, i.event = .setMsgRate rate
  · obtain ⟨rate, hevent⟩ := hset
    exact Or.inr (connRatePerMin_setMsgRate hevent)
  · have hsame := @connRatePerMin_step codec crypto sv i fun rate hevent => hset ⟨rate, hevent⟩
    exact h.imp hsame.trans hsame.trans

/-- Of the connections from one address at most twice the configured rate become sessions in any
minute.  One that is refused finds the whole rate used up within the last minute, or comes after an
administrator has set the rate for messages, and takes no place. -/
theorem connections_limited (codec : Codec) (crypto : Crypto) (config : Config) (db : Database)
    (ip : Str) (is : List Input) (hclock : (is.map fun i => i.draws.now).Pairwise (· ≤ ·)) :
    (∀ u, (((observe (step codec crypto) (admittedConnection ip) (start config db) is).countP
        fun time => u ≤ time ∧ time ≤ u + minutes 1 : ℕ) : ℤ) ≤ 2 * max config.connRatePerMin 0) ∧
      ∀ pre i post, is = pre ++ i :: post →
        let sv := final (step codec crypto) (start config db) pre
        ∀ l, askedForIp ip sv i = some l →
          (sv.step codec crypto i).sessions =
              sv.sessions ++ (l.allowedAt i.draws.now).toList.map (fun _ => Session.new) ∧
            (l.allowedAt i.draws.now = none →
              (∃ j ∈ pre, ∃ rate, j.event = .setMsgRate rate) ∨
                config.connRatePerMin ≤ (((observe (step codec crypto) (admittedConnection ip)
                  (start config db) pre).countP
                    fun time => i.draws.now - minutes 1 < time : ℕ) : ℤ)) := by
  constructor
  · intro u
    have hrate := (@connRatePerMin_cases codec crypto config db is).mono fun sv h =>
      show min config.connRatePerMin (-1) ≤ sv.connRatePerMin ∧
        sv.connRatePerMin ≤ max config.connRatePerMin (-1) by omega
    have hbounded := (rate_of_address codec crypto config db ip is hclock hrate).1 u
    omega
  · intro pre i post hsplit sv l hasked
    refine ⟨(sessions_of_asked hasked).2, fun hrefused => or_iff_not_imp_left.2 fun hunset => ?_⟩
    have hevent := (askedForIp_eq_some hasked).1
    have hkept : ∀ j ∈ pre ++ [i], ∀ rate, j.event ≠ .setMsgRate rate := by
      intro j hj rate hset
      rcases List.mem_append.1 hj with hbefore | hlast
      · exact hunset ⟨j, hbefore, rate, hset⟩
      · cases List.mem_singleton.1 hlast
        cases hevent.symm.trans hset
    have hrate := (@connRatePerMin_final codec crypto config db _ hkept).mono fun sv h =>
      show config.connRatePerMin ≤ sv.connRatePerMin ∧
        sv.connRatePerMin ≤ config.connRatePerMin by omega
    have hearlier : ((pre ++ [i]).map fun i => i.draws.now).Pairwise (· ≤ ·) := by
      rw [hsplit, List.append_cons, List.map_append] at hclock
      exact (List.pairwise_append.1 hclock).1
    exact (rate_of_address codec crypto config db ip (pre ++ [i]) hearlier hrate).2 pre i [] rfl l
      hasked hrefused

/-- Three connections from one address in the same minute, at a rate of two. -/
def crowdedRun : List Input :=
  [Event.accept (str "10.0.0.1"), .accept (str "10.0.0.1"), .accept (str "10.0.0.1")].map
    Event.atZero

theorem connections_limited_crowdedRun :
    let sv := start ⟨10, 2, 10, []⟩ .empty
    observe (step .proto3 aliceBobCrypto) (admittedConnection (str "10.0.0.1")) sv crowdedRun =
        [0, 0] ∧
      ∀ u, ((([0, 0] : List Time).countP
        fun time => u ≤ time ∧ time ≤ u + minutes 1 : ℕ) : ℤ) ≤ 2 * max 2 0 := by
  intro sv
  have hadmitted : observe (step .proto3 aliceBobCrypto) (admittedConnection (str "10.0.0.1")) sv
      crowdedRun = [0, 0] := by decide +kernel
  obtain ⟨hbounded, -⟩ := connections_limited .proto3 aliceBobCrypto ⟨10, 2, 10, []⟩ .empty
    (str "10.0.0.1") crowdedRun (by decide +kernel)
  rw [hadmitted] at hbounded
  exact ⟨hadmitted, hbounded⟩

end Ircord.Server

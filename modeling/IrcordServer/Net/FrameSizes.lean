import IrcordServer.Net.ReplySizes

/-!
# Frames that the protocol's own reader accepts

The README has a maximal message size, "enforced server-side"; `do_read_frame_header` enforces it on
what comes in.  Nothing enforces it on what goes out, where the data of the clients comes back with
more around it.
-/

open Protobuf Run

namespace Ircord

namespace Server

/-- `do_read_frame_header` would accept every frame that was written. -/
def FramesFit (codec : Codec) (sv : Server) : Prop := ∀ p ∈ sv.written, p.2.Fits codec

instance (codec : Codec) (sv : Server) : Decidable (sv.FramesFit codec) :=
  inferInstanceAs (Decidable (∀ p ∈ _, _))

/-- If the step handles a frame, what the answers are made of leaves room in a frame. -/
def Modest (codec : Codec) (crypto : Crypto) (sv : Server) (i : Input) : Prop :=
  match i.event with
  | .payloadRead s (some data) =>
    ∀ x ∈ sv.sessions[s]?, ∀ env ∈ codec.envelope.parse data,
      (x.state = .established → sv.MessageFits codec x env) ∧
        (x.state = .authPending → LoginFits codec crypto i.draws sv x env)
  | _ => True

instance (codec : Codec) (crypto : Crypto) (sv : Server) (i : Input) :
    Decidable (Modest codec crypto sv i) := by
  unfold Modest
  split <;> infer_instance

section Proofs

variable {codec : Codec} {crypto : Crypto} {d : Draws} {sv : Server} {s : SessionId} {x : Session}

/-! ## The handlers of events -/

theorem Sized.onAccept (h : Sized codec sv) (ip : Str) : Sized codec (sv.onAccept d ip) := by
  unfold Server.onAccept
  dsimp only
  split_ifs
  · exact ⟨h.frames, h.replays, h.sessions, h.users, h.owners, h.rooms⟩
  · exact ⟨h.frames, h.replays, h.sessions, h.users, h.owners, h.rooms⟩
  · refine ⟨h.frames, h.replays, fun t y hy => ?_, h.users, h.owners, h.rooms⟩
    have hold : sv.sessions[t]? = some y ∨ t = sv.sessions.length ∧ y = .new :=
      sessions_of_accept rfl hy
    rcases hold with hold | ⟨-, rfl⟩
    · exact h.sessions t y hold
    · exact sessionFits_new

theorem Sized.doReadFrameHeader (h : Sized codec sv) (s : SessionId) :
    Sized codec (sv.doReadFrameHeader s) := by
  refine h.modify s _ fun y hy => ?_
  split_ifs
  · exact hy
  · exact ⟨hy.userId, fun size hsize => by cases hsize⟩

theorem Sized.stopReading (h : Sized codec sv) (s : SessionId) :
    Sized codec (sv.modify s fun x => { x with reading := none }) :=
  h.modify s _ fun _ hy => ⟨hy.userId, fun _ hsize => by cases hsize⟩

theorem Sized.onShutdown (h : Sized codec sv) : Sized codec sv.onShutdown := by
  unfold Server.onShutdown
  split_ifs
  · exact h
  · have hflags : Sized codec { sv with shuttingDown := true, accepting := false } :=
      ⟨h.frames, h.replays, h.sessions, h.users, h.owners, h.rooms⟩
    have hall : Sized codec (sv.usersBySession.keys.foldl (fun sv s => sv.disconnect s)
        { sv with shuttingDown := true, accepting := false }) :=
      hflags.foldl fun t _ _ hsv => hsv.disconnect t
    exact ⟨hall.frames, hall.replays, hall.sessions, fun u t hu => by (cases hu),
      fun t u hu => by (cases hu), hall.rooms⟩

variable [compact : codec.Compact]

theorem Sized.onSessionDisconnected (h : Sized codec sv) (s : SessionId) :
    Sized codec (sv.onSessionDisconnected codec d s) := by
  have hunregister : Sized codec (sv.unregister s) := by
    have hcount : Sized codec { sv with
        activeConnections := sv.activeConnections - 1
        disconnected := s :: sv.disconnected } :=
      ⟨h.frames, h.replays, h.sessions, h.users, h.owners, h.rooms⟩
    unfold unregister
    dsimp only
    split
    · exact hcount
    · exact hcount.removeSession s _
  unfold Server.onSessionDisconnected
  split
  · exact hunregister
  · rename_i userId howner
    have huser := h.owners s userId howner
    dsimp only
    split_ifs
    · exact hunregister
    · have hoffline := @Sized.broadcastPresence codec d _ _ _ hunregister huser .offline none
      obtain ⟨hvoice, hactions⟩ := @VoiceRoomManager.namesFit_onDisconnect codec _
        (Server.findSession _) userId _ hoffline.rooms huser
      exact hoffline.setVoice hvoice hactions

theorem Sized.onHandshake (h : Sized codec sv) (s : SessionId) (ok : Bool) :
    Sized codec (sv.onHandshake codec d s ok) := by
  have hdone := h.touch s (fun x => { x with handshaking := false }) (fun _ => rfl) fun _ => rfl
  unfold Server.onHandshake
  dsimp only
  split_ifs
  · exact (hdone.touch s (fun x => { x with state := .hello }) (fun _ => rfl)
      fun _ => rfl).doReadFrameHeader s
  · exact hdone.onSessionDisconnected s

/-- A frame is only read if its size is within the limit. -/
theorem Sized.onHeader (h : Sized codec sv) (s : SessionId) (size : Option UInt32) :
    Sized codec (sv.onHeader codec d s size) := by
  have hdone := h.stopReading s
  unfold Server.onHeader
  dsimp only
  split
  · exact hdone.onSessionDisconnected s
  · split_ifs with hlarge
    · exact (hdone.sendError s _ (by decide)).onSessionDisconnected s
    · exact hdone.onSessionDisconnected s
    · refine hdone.modify s _ fun y hy => ⟨hy.userId, fun n hn => ?_⟩
      cases hn
      exact not_lt.1 hlarge

theorem Sized.onPayload (h : Sized codec sv) (found : sv.sessions[s]? = some x)
    {data : Option Bytes}
    (henabled : sv.enabled (.payloadRead s data) = true)
    (hmodest : ∀ b ∈ data, ∀ env ∈ codec.envelope.parse b,
      (x.state = .established → sv.MessageFits codec x env) ∧
        (x.state = .authPending → LoginFits codec crypto d sv x env)) :
    Sized codec (sv.onPayload codec crypto d s x data) := by
  have hdone := h.stopReading s
  unfold Server.onPayload
  dsimp only
  cases data with
  | none => exact hdone.onSessionDisconnected s
  | some data =>
    refine Sized.doReadFrameHeader ?_ s
    obtain ⟨y, hy, hreads⟩ := found_of_any henabled
    cases found.symm.trans hy
    have hsession := h.sessions s x found
    have hdata : data.length ≤ Session.maxMessageSize := by
      unfold ReadsPayload at hreads
      split at hreads
      · rename_i size _ hreading hsome
        cases hsome
        rw [of_decide_eq_true hreads]
        exact hsession.reading size hreading
      · rename_i hnone
        cases hnone
      · cases hreads
    unfold onFrameReceived
    split
    · exact hdone.sendError s _ (by decide)
    · rename_i env hparse
      obtain ⟨hmessage, hlogin⟩ := hmodest data rfl env hparse
      refine hdone.handleEnvelope hsession.userId hparse hdata hmessage ?_
      intro hstate htype auth hauth hpasses
      obtain ⟨hpresents, haccept⟩ := hpasses
      exact hlogin hstate htype auth hauth ⟨⟨hpresents.userId, hpresents.available,
        hpresents.keyLength, hpresents.signatureLength, hpresents.verified⟩, haccept⟩

theorem Sized.onTimer (h : Sized codec sv) (s : SessionId) (x : Session) (wait : TimerWait) :
    Sized codec (sv.onTimer codec d s x wait) := by
  have hdone := h.touch s (fun x => { x with expired := x.expired.erase wait }) (fun _ => rfl)
    fun _ => rfl
  unfold Server.onTimer
  dsimp only
  split
  · exact hdone
  · cases wait with
    | timeout => exact hdone.onSessionDisconnected s
    | interval =>
      dsimp only
      split
      · exact hdone.onSessionDisconnected s
      · have hping : Envelope.Fits codec ⟨x.nextSeq, d.nowMs, .ping, []⟩ :=
          Envelope.fits_of_payload (show MessageType.code .ping ≠ 0 by decide)
            (Nat.zero_le _)
        refine Sized.send ?_ s hping
        exact hdone.touch s _ (fun _ => rfl) fun _ => rfl

/-! ## Steps and runs -/

theorem sized_step (h : Sized codec sv) {i : Input} (hmodest : Modest codec crypto sv i) :
    Sized codec (sv.step codec crypto i) := by
  unfold Modest at hmodest
  unfold Server.step
  split_ifs with henabled
  swap
  · exact h
  cases hevent : i.event with
  | accept ip => exact h.onAccept ip
  | acceptError | setMaxConnections | setMsgRate | setMotd =>
    exact ⟨h.frames, h.replays, h.sessions, h.users, h.owners, h.rooms⟩
  | handshakeDone s ok => exact h.onHandshake s ok
  | headerRead s size => exact h.onHeader s size
  | payloadRead s data =>
    rw [hevent] at henabled hmodest
    obtain ⟨x, found, -⟩ := found_of_any henabled
    unfold perform
    dsimp only
    rw [found]
    refine h.onPayload found henabled fun b hb env hparse => ?_
    cases hb
    exact hmodest x found env hparse
  | writeDone s ok =>
    have hdone := h.touch s (fun x => { x with writes := x.writes - 1 }) (fun _ => rfl)
      fun _ => rfl
    unfold perform onWritten
    dsimp only
    split_ifs
    · exact hdone
    · exact hdone.onSessionDisconnected s
  | disconnectRuns s => exact h.touch s _ (fun _ => rfl) fun _ => rfl
  | timerExpires s => exact h.touch s _ (fun _ => rfl) fun _ => rfl
  | timerFires s wait =>
    unfold perform
    dsimp only
    split
    · exact h
    · exact h.onTimer s _ wait
  | adminDisconnect userId =>
    unfold perform
    dsimp only
    split_ifs
    · exact h
    · split
      · exact h
      · exact h.disconnect _
  | cleanup =>
    exact h.setDb (h.replays.of_rows fun r hr => (Sql.Table.mem_retain.1 hr).1)
  | shutdown => exact h.onShutdown

/-- Clients can read every frame, as long as what they send and what is stored leaves room for what
the server adds. -/
theorem frames_fit (codec : Codec) [codec.Compact] (crypto : Crypto) (config : Config)
    {db : Database} (hdb : db.ReplaysFit codec) {is : List Input}
    (hmodest : AllSteps (step codec crypto) (Modest codec crypto) (start config db) is) :
    AllStates (step codec crypto) (FramesFit codec) (start config db) is :=
  (AllStates.of_steps (sized_start config hdb) (fun _ _ h => sized_step h) hmodest).mono
    fun _ h => h.frames

/-- `alice` logs in and sends a short ping. -/
theorem frames_fit_shortPing :
    AllStates (step .proto3 (loginCrypto (str "alice") aliceSignature)) (FramesFit .proto3)
      (start ⟨10, 10, 10, []⟩ .empty)
      ((loginEvents 0 (str "alice") aliceSignature ++ frameEvents 0 .ping (str "hello")).map
        Event.atZero) :=
  frames_fit _ _ _ (by decide) (by decide +kernel)

end Proofs

/-! ## A ping -/

section Ping

variable {codec : Codec} {crypto : Crypto} {d : Draws} {sv : Server} {s : SessionId} {x : Session}

/-- The frame with that header is read. -/
theorem sessions_headerRead {n : UInt32} (found : sv.sessions[s]? = some x)
    (hreads : x.reading = some .header) (hsize : n.toNat ≤ Session.maxMessageSize) (hne : n ≠ 0) :
    (sv.step codec crypto ⟨d, .headerRead s (some n)⟩).sessions[s]? =
      some { x with reading := some (.payload n.toNat) } := by
  have henabled : sv.enabled (.headerRead s (some n)) = true := by
    show sv.sessions[s]?.any _ = true
    rw [found, Option.any_some, hreads]
    rfl
  unfold Server.step
  rw [if_pos henabled]
  unfold perform Server.onHeader
  dsimp only
  rw [if_neg (not_lt.2 hsize), if_neg hne, sessions_modify, if_pos rfl, sessions_modify, if_pos rfl,
    found]
  rfl

/-- A ping comes back with a sequence number. -/
theorem written_ping {data : Bytes} {env : Envelope}
    (found : sv.sessions[s]? = some x) (hreads : x.reading = some (.payload data.length))
    (hstate : x.state = .established) (hparse : codec.envelope.parse data = some env)
    (htype : env.type = .ping) :
    (s, ⟨x.nextSeq, d.nowMs, .pong, env.payload⟩) ∈
      (sv.step codec crypto ⟨d, .payloadRead s (some data)⟩).written := by
  have hdelivered : delivered codec s sv ⟨d, .payloadRead s (some data)⟩ = some env := by
    have henabled : sv.enabled (.payloadRead s (some data)) = true := by
      show sv.sessions[s]?.any _ = true
      rw [found, Option.any_some]
      unfold ReadsPayload
      rw [hreads]
      exact decide_eq_true rfl
    unfold delivered
    dsimp only
    rw [if_pos ⟨rfl, henabled⟩, hparse]
  obtain ⟨y, hy, hstep⟩ := @step_of_delivered codec crypto sv s _ _ hdelivered
  cases found.symm.trans hy
  rw [hstep]
  unfold Server.handleEnvelope
  rw [htype]
  dsimp only
  rw [if_pos hstate]
  exact List.mem_append_right _ (List.mem_singleton_self _)

section LongPing

variable {payload : Bytes} (hlength : payload.length = 65530)

include hlength

theorem length_encode_longPayload : (encode (bytes 4 payload)).length = 65534 := by
  have hne : payload ≠ [] := by
    rintro rfl
    cases hlength
  rw [length_encode_bytes 4 hne, hlength]
  decide

theorem length_longPing :
    (Codec.proto3.envelope.serialize ⟨0, 0, .ping, payload⟩).length = Session.maxMessageSize := by
  have hhead : (encode (uint 1 0)).length + (encode (uint 2 (toUInt64 0))).length +
      (encode (uint 3 (MessageType.code .ping))).length = 2 := by decide
  rw [serialize_envelope, length_envelopeFields, length_encode_longPayload hlength, hhead]
  rfl

theorem not_fits_longPong {n : ℕ} (hn : n ≠ 0) (timestampMs : ℤ) :
    ¬ Envelope.Fits .proto3 ⟨n, timestampMs, .pong, payload⟩ := by
  have hseq := one_le_length_encode_uint 1 hn
  have htype : (encode (uint 3 (MessageType.code .pong))).length = 2 := by decide
  have hpayload := length_encode_longPayload hlength
  have hmax : Session.maxMessageSize = 65536 := rfl
  rintro ⟨-, hle⟩
  rw [serialize_envelope, length_envelopeFields] at hle
  dsimp only at hle
  omega

/-- A ping of the maximal size is accepted, and the answer is longer by a sequence number. -/
theorem exists_written_longPong (hstate : x.state = .established)
    (found : sv.sessions[s]? = some x) (hreads : x.reading = some .header) (hseq : x.nextSeq ≠ 0) :
    ¬ (final (step .proto3 crypto) sv
      ((frameEvents s .ping payload).map fun event => ⟨d, event⟩)).FramesFit .proto3 := by
  have hsize := length_longPing hlength
  unfold frameEvents
  dsimp only
  rw [hsize]
  have found := @sessions_headerRead .proto3 crypto d sv s x (.ofNat Session.maxMessageSize) found
    hreads (by decide) (by decide)
  have hparse : Codec.proto3.envelope.parse
      (Codec.proto3.envelope.serialize ⟨0, 0, .ping, payload⟩) = some ⟨0, 0, .ping, payload⟩ :=
    parse_serialize_envelope (show 0 < 2 ^ 64 by decide) ⟨rfl, by decide⟩
      ⟨rfl, show MessageType.code .ping < 2 ^ 64 by decide⟩
      (show payload.length < 2 ^ 64 by rw [hlength]; decide)
  have hpong := @written_ping .proto3 crypto d _ s _ _ _ found (by rw [hsize]; rfl) hstate hparse
    rfl
  exact fun hfits => not_fits_longPong hlength hseq _ (hfits _ hpong)

end LongPing

end Ping

/-- `alice` logs in and sends a ping of the maximal size. -/
def longPingRun (payload : Bytes) : List Input :=
  (loginEvents 0 (str "alice") aliceSignature ++ frameEvents 0 .ping payload).map Event.atZero

theorem not_framesFit_longPingRun {payload : Bytes} (hlength : payload.length = 65530) :
    ¬ (final (step .proto3 (loginCrypto (str "alice") aliceSignature))
      (start ⟨10, 10, 10, []⟩ .empty) (longPingRun payload)).FramesFit .proto3 := by
  have hlogin : (final (step .proto3 (loginCrypto (str "alice") aliceSignature))
      (start ⟨10, 10, 10, []⟩ .empty)
      ((loginEvents 0 (str "alice") aliceSignature).map Event.atZero)).sessions[0]?.any (fun x =>
        x.state == .established && x.reading == some .header && x.nextSeq != 0) = true := by
    decide +kernel
  obtain ⟨x, found, hx⟩ := found_of_any hlogin
  simp only [Bool.and_eq_true, beq_iff_eq, bne_iff_ne] at hx
  obtain ⟨⟨hstate, hreads⟩, hseq⟩ := hx
  unfold longPingRun
  rw [List.map_append, final_append]
  exact exists_written_longPong hlength hstate found hreads hseq

/-- The ping is as long as a frame may be, and the server writes a longer one. -/
theorem not_framesFit_longPing :
    (Codec.proto3.envelope.serialize ⟨0, 0, .ping, List.replicate 65530 0⟩).length =
        Session.maxMessageSize ∧
      ¬ AllStates (step .proto3 (loginCrypto (str "alice") aliceSignature)) (FramesFit .proto3)
        (start ⟨10, 10, 10, []⟩ .empty) (longPingRun (List.replicate 65530 0)) :=
  ⟨length_longPing List.length_replicate,
    fun hall => not_framesFit_longPingRun List.length_replicate hall.final⟩

end Server

end Ircord

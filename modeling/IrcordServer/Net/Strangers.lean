import IrcordServer.Net.Authenticity
import IrcordServer.Net.Pulses

/-!
# What a stranger is told

A client that has not logged in is told nothing but that its own messages are refused, and its
challenge.  All other messages go to the session that a handler runs for, once it is established,
and to sessions of the registry.
-/

open Container Run

namespace Ircord

/-- The messages that come before a login. -/
def MessageType.Curt (type : MessageType) : Prop :=
  type = .authChallenge ∨ type = .authFail ∨ type = .error

namespace Server

/-- What was written to the session. -/
def sentTo (t : SessionId) (sv : Server) : List (SessionId × Envelope) :=
  sv.written.filter fun e => e.1 = t

/-- From `sv` to `sv'` the session is not entered in the registry, and if it was not there, nothing
is written to it. -/
structure Spares (t : SessionId) (sv sv' : Server) : Prop where
  registered : sv'.Registered t → sv.Registered t
  silent : ¬ sv.Registered t → sentTo t sv' = sentTo t sv

section Spares

variable {codec : Codec} {crypto : Crypto} {d : Draws} {sv sv' sv'' : Server} {s t : SessionId}
  {x : Session}

namespace Spares

theorem refl (t : SessionId) (sv : Server) : Spares t sv sv := ⟨id, fun _ => rfl⟩

theorem trans (h : Spares t sv sv') (h' : Spares t sv' sv'') : Spares t sv sv'' where
  registered := h.registered ∘ h'.registered
  silent hreg := (h'.silent (mt h.registered hreg)).trans (h.silent hreg)

theorem of_eq (written : sv'.written = sv.written)
    (sessionsByUser : sv'.sessionsByUser = sv.sessionsByUser)
    (usersBySession : sv'.usersBySession = sv.usersBySession) : Spares t sv sv' where
  registered h := by
    unfold Registered at h ⊢
    rwa [sessionsByUser, usersBySession] at h
  silent _ := by
    unfold sentTo
    rw [written]

theorem foldl {β : Type} {f : Server → β → Server} {bs : List β}
    (hf : ∀ b ∈ bs, ∀ sv', (∀ u, sv'.Registered u ↔ sv.Registered u) →
      Spares t sv' (f sv' b) ∧ ∀ u, (f sv' b).Registered u ↔ sv'.Registered u) :
    Spares t sv (bs.foldl f sv) := by
  have hfold : ∀ cs : List β, (∀ b ∈ cs, b ∈ bs) → ∀ sv',
      (∀ u, sv'.Registered u ↔ sv.Registered u) → Spares t sv' (cs.foldl f sv') := by
    intro cs
    induction cs with
    | nil => exact fun _ sv' _ => refl t sv'
    | cons c cs ih =>
      intro hcs sv' hsv'
      obtain ⟨hspares, hreg⟩ := hf c (hcs c List.mem_cons_self) sv' hsv'
      exact hspares.trans (ih (fun b hb => hcs b (List.mem_cons_of_mem c hb)) _
        fun u => (hreg u).trans (hsv' u))
  exact hfold bs (fun _ hb => hb) sv fun _ => Iff.rfl

end Spares

theorem spares_modify (f : Session → Session) : Spares t sv (sv.modify s f) := .of_eq rfl rfl rfl

theorem spares_setDb (db : Database) : Spares t sv { sv with db := db } := .of_eq rfl rfl rfl

theorem spares_disconnect : Spares t sv (sv.disconnect s) := spares_modify _

/-- A message for a session that may be written to. -/
theorem spares_send {u : SessionId} (hu : u ≠ t ∨ sv.Registered u) (env : Envelope) :
    Spares t sv (sv.send u env) where
  registered := id
  silent hreg := by
    have hne : u ≠ t := by
      rintro rfl
      exact hu.elim (fun hne => hne rfl) hreg
    unfold sentTo send
    rw [List.filter_append, List.filter_singleton, decide_eq_false hne]
    exact List.append_nil _

theorem spares_sendEnvelope (hne : s ≠ t) (type : MessageType) (payload : Bytes) :
    Spares t sv (sv.sendEnvelope d s type payload) := by
  unfold sendEnvelope
  split
  · exact .refl t sv
  · exact (spares_modify fun x => { x with nextSeq := x.nextSeq + 1 }).trans
      (spares_send (Or.inl hne) _)

theorem spares_sendError (hne : s ≠ t) (code : UInt32) (message : String) :
    Spares t sv (sv.sendError codec d s code message) := spares_sendEnvelope hne _ _

theorem spares_sendError_disconnect (hne : s ≠ t) (code : UInt32) (message : String) :
    Spares t sv ((sv.sendError codec d s code message).disconnect s) :=
  (spares_sendError hne code message).trans spares_disconnect

theorem spares_authFail (hne : s ≠ t) (code : UInt32) (message : Str) :
    Spares t sv (sv.authFail codec d s code message) :=
  (spares_sendEnvelope hne _ _).trans spares_disconnect

theorem spares_run (hne : s ≠ t) {actions : List Action}
    (h : Action.About (sv.Writable (some s)) actions) : Spares t sv (sv.run actions) := by
  refine .foldl fun a ha sv' hsv' => ?_
  cases a with
  | send u env =>
    refine ⟨spares_send ?_ env, fun _ => Iff.rfl⟩
    refine (h _ ha).imp (fun hsame => ?_) (hsv' u).2
    cases hsame
    exact hne
  | disconnect u reason => exact ⟨spares_disconnect, fun _ => Iff.rfl⟩

theorem spares_broadcast (env : Envelope) (exclude : Option SessionId) :
    Spares t sv (sv.broadcast env exclude) := by
  refine .foldl fun u hu sv' hsv' => ⟨spares_send (Or.inr ((hsv' u).2 ?_)) env, fun _ => Iff.rfl⟩
  obtain ⟨e, he, rfl⟩ := List.mem_map.1 (List.mem_filter.1 hu).1
  exact Or.inr ⟨e, he, rfl⟩

theorem spares_broadcastPresence (update : PresenceUpdate) (exclude : Option SessionId) :
    Spares t sv (sv.broadcastPresence codec d update exclude) := spares_broadcast _ _

theorem spares_foldl_send (hne : s ≠ t) (envs : List Envelope) :
    Spares t sv (envs.foldl (fun sv env => sv.send s env) sv) :=
  .foldl fun env _ _ _ => ⟨spares_send (Or.inl hne) env, fun _ => Iff.rfl⟩

/-- The voice rooms tell registered users. -/
theorem spares_voice (voice : VoiceRoomManager) {actions : List Action}
    (h : Action.About (Found sv.findSession) actions) :
    Spares t sv ({ sv with voice := voice }.run actions) := by
  have hset : Spares t sv { sv with voice := voice } := .of_eq rfl rfl rfl
  refine hset.trans (.foldl fun a ha sv' hsv' => ?_)
  cases a with
  | send u env =>
    obtain ⟨userId, hfound⟩ := h _ ha
    have hreg : Registered { sv with voice := voice } u := registered_of_findSession sv u hfound
    exact ⟨spares_send (Or.inr ((hsv' u).2 hreg)) env, fun _ => Iff.rfl⟩
  | disconnect u reason => exact ⟨spares_disconnect, fun _ => Iff.rfl⟩

theorem spares_leaveVoiceRooms (userId : Str) : Spares t sv (sv.leaveVoiceRooms codec userId) :=
  spares_voice _ (VoiceRoomManager.about_of_roomMessage _
    (VoiceRoomManager.roomMessage_onDisconnect codec sv.findSession sv.voice userId))

theorem spares_unregister : Spares t sv (sv.unregister s) where
  registered h := by
    rw [registered_iff] at h ⊢
    unfold unregister at h
    dsimp only at h
    split at h
    · exact h
    · refine h.imp (fun hmem => (AList.mem_erase.1 hmem).2) ?_
      rintro ⟨userId, hlookup⟩
      refine ⟨userId, ?_⟩
      unfold removeSession at hlookup
      dsimp only at hlookup
      rw [UnorderedMap.lookup_erase_ite] at hlookup
      split_ifs at hlookup
      exact hlookup
  silent _ := by
    unfold sentTo
    rw [written_unregister]

theorem spares_onSessionDisconnected : Spares t sv (sv.onSessionDisconnected codec d s) := by
  unfold onSessionDisconnected
  split
  · exact spares_unregister
  · dsimp only
    split_ifs
    · exact spares_unregister
    · exact (spares_unregister.trans (spares_broadcastPresence _ _)).trans
        (spares_leaveVoiceRooms _)

theorem spares_doReadFrameHeader : Spares t sv (sv.doReadFrameHeader s) := spares_modify _

/-! ## Messages of others -/

theorem spares_handleChat (hne : s ≠ t) (chat : ChatEnvelope) (raw : Envelope) :
    Spares t sv (sv.handleChat codec d s x chat raw) := by
  unfold handleChat
  split_ifs
  · exact spares_sendError_disconnect hne _ _
  · exact spares_sendError hne _ _
  · exact spares_broadcast _ _
  · split
    · rename_i recipient hfound
      exact spares_send (Or.inr (registered_of_findSession sv recipient hfound)) raw
    · split
      · exact spares_setDb _
      · exact (spares_setDb _).trans (spares_sendError hne _ _)

theorem spares_handleVoiceSignal (hne : s ≠ t) (vs : VoiceSignal) (raw : Envelope) :
    Spares t sv (sv.handleVoiceSignal codec d s x vs raw) := by
  unfold handleVoiceSignal
  split_ifs
  · exact spares_sendError_disconnect hne _ _
  · exact spares_sendError hne _ _
  all_goals split
  · rename_i recipient hfound
    exact spares_send (Or.inr (registered_of_findSession sv recipient hfound)) raw
  · exact spares_sendError hne _ _
  · rename_i recipient hfound
    exact spares_send (Or.inr (registered_of_findSession sv recipient hfound)) raw
  · exact .refl t sv

theorem spares_handleVoiceRoomJoin (hne : s ≠ t) (join : VoiceRoomJoin) :
    Spares t sv (sv.handleVoiceRoomJoin codec d s x join) := by
  have habout := VoiceRoomManager.about_of_roomMessage _
    (VoiceRoomManager.roomMessage_join codec sv.findSession sv.voice join.channelId x.userId)
  unfold handleVoiceRoomJoin
  dsimp only
  split_ifs
  · exact (spares_voice _ habout).trans (spares_sendEnvelope hne _ _)
  · exact spares_voice _ habout

theorem spares_handleVoiceRoomLeave (leave : VoiceRoomLeave) :
    Spares t sv (sv.handleVoiceRoomLeave codec x leave) :=
  spares_voice _ (VoiceRoomManager.about_of_roomMessage _
    (VoiceRoomManager.roomMessage_leave codec sv.findSession sv.voice _ _))

theorem spares_handleKeyUpload (ku : KeyUpload) : Spares t sv (sv.handleKeyUpload d x ku) := by
  unfold handleKeyUpload
  dsimp only
  split
  · exact .refl t sv
  · exact spares_setDb _

theorem spares_handleKeyRequest (hne : s ≠ t) (kr : KeyRequest) :
    Spares t sv (sv.handleKeyRequest codec d s kr) := by
  unfold handleKeyRequest
  split
  · exact spares_sendError hne _ _
  · exact (spares_setDb _).trans (spares_sendEnvelope hne _ _)

theorem spares_handleCommand (hne : s ≠ t) (cmd : IrcCommand) :
    Spares t sv (sv.handleCommand codec crypto d s x cmd) := by
  obtain ⟨habout, -⟩ :=
    @CommandHandler.contained_handleCommand (sv.services codec crypto d) sv.commands sv.db
      ⟨s, x.userId⟩ cmd
  have habout' : Action.About (sv.Writable (some s)) _ := habout.mono fun u hu =>
    hu.elim (fun e => Or.inl (congrArg some e.symm)) fun ⟨_, hfound⟩ =>
      Or.inr (registered_of_findSession sv u hfound)
  have hset : Spares t sv { sv with
      commands := (sv.commands.handleCommand (sv.services codec crypto d) sv.db cmd
        ⟨s, x.userId⟩).handler
      db := (sv.commands.handleCommand (sv.services codec crypto d) sv.db cmd
        ⟨s, x.userId⟩).db } := .of_eq rfl rfl rfl
  exact (hset.trans (spares_run hne habout')).trans (spares_send (Or.inl hne) _)

theorem spares_handleFileRequest (hne : s ≠ t) (req : FileUploadRequest) :
    Spares t sv (sv.handleFileRequest codec d s x req) := by
  unfold handleFileRequest
  split
  · exact spares_sendEnvelope hne _ _
  · split
    · exact spares_sendEnvelope hne _ _
    · dsimp only
      split
      · exact (spares_setDb _).trans (spares_sendEnvelope hne _ _)
      · exact ((spares_setDb _).trans (spares_modify _)).trans (spares_sendEnvelope hne _ _)

theorem spares_finishUpload (hne : s ≠ t) (fileId : Str) (upload : FileUploadState) :
    Spares t sv (sv.finishUpload codec d s fileId upload) := by
  unfold finishUpload
  dsimp only
  split_ifs
  · exact ((spares_setDb _).trans (spares_sendEnvelope hne _ _)).trans (spares_modify _)
  · exact ((spares_setDb _).trans (spares_sendEnvelope hne _ _)).trans (spares_modify _)

theorem spares_allowMessage : Spares t sv (sv.allowMessage d s x).2 := by
  unfold allowMessage
  split
  · exact .refl t sv
  · exact spares_modify _

theorem spares_handleFileUpload (hne : s ≠ t) (chunk : FileUploadChunk) :
    Spares t sv (sv.handleFileUpload codec d s x chunk) := by
  unfold handleFileUpload
  have hallow := @spares_allowMessage d sv s t x
  revert hallow
  rcases sv.allowMessage d s x with ⟨allowed, sv₁⟩
  intro hallow
  refine hallow.trans ?_
  cases allowed with
  | false => exact spares_sendEnvelope hne _ _
  | true =>
    dsimp only
    split
    · exact spares_sendEnvelope hne _ _
    · split
      · exact spares_sendEnvelope hne _ _
      · split
        · exact (spares_setDb _).trans (spares_sendEnvelope hne _ _)
        · have hprogress (db : Database) (f : Session → Session) (payload : Bytes) : Spares t sv₁
              (({ sv₁ with db := db }.modify s f).sendEnvelope d s .fileProgress payload) :=
            ((spares_setDb db).trans (spares_modify f)).trans (spares_sendEnvelope hne _ _)
          split
          · exact (hprogress _ _ _).trans (spares_finishUpload hne _ _)
          · exact hprogress _ _ _

theorem spares_sendChunks (hne : s ≠ t) (fileId : Str) (fileSize totalChunks n i : ℕ)
    (sv : Server) : Spares t sv (sendChunks codec d s fileId fileSize totalChunks n i sv) := by
  induction n generalizing i sv with
  | zero => exact .refl t sv
  | succ n ih =>
    unfold sendChunks
    split
    · exact spares_sendEnvelope hne _ _
    · exact ((spares_sendEnvelope hne _ _).trans (spares_sendEnvelope hne _ _)).trans (ih _ _)

theorem spares_handleFileDownload (hne : s ≠ t) (req : FileDownloadRequest) :
    Spares t sv (sv.handleFileDownload codec d s req) := by
  unfold handleFileDownload
  split
  · exact spares_sendEnvelope hne _ _
  · exact spares_sendChunks hne _ _ _ _ _ _

/-! ## The login of others -/

theorem spares_handleHello (hne : s ≠ t) (hello : Hello) :
    Spares t sv (sv.handleHello codec d s hello) := by
  unfold handleHello
  split_ifs
  · exact spares_sendError_disconnect hne _ _
  · exact ((spares_modify _).trans (spares_sendEnvelope hne _ _)).trans (spares_modify _)

theorem spares_addSession (hne : s ≠ t) (userId : Str) :
    Spares t sv (sv.addSession s userId) where
  registered h := not_imp_not.1 (not_registered_addSession hne) h
  silent _ := rfl

theorem spares_register (hne : s ≠ t) (userId : Str) : Spares t sv (sv.register s userId) := by
  unfold register
  split
  · exact spares_addSession hne userId
  · rename_i old hlookup
    refine Spares.trans ?_ (spares_addSession hne userId)
    refine ⟨fun h => ?_, fun _ => rfl⟩
    rw [registered_iff] at h ⊢
    refine h.imp (fun hmem => (AList.mem_erase.1 hmem).2) ?_
    rintro ⟨u, hu⟩
    refine ⟨u, ?_⟩
    have hu' : (sv.sessionsByUser.erase userId).lookup u = some t := hu
    rw [UnorderedMap.lookup_erase_ite] at hu'
    split_ifs at hu'
    exact hu'

theorem spares_establish (hne : s ≠ t) (userId : Str) :
    Spares t sv (establish codec d sv s userId) := by
  have hmotd (sv : Server) : Spares t sv (sv.sendMotd codec d s) := by
    unfold sendMotd
    split_ifs
    · exact .refl t sv
    · exact spares_sendEnvelope hne _ _
  have henter : Spares t sv (sv.enterEstablished codec d s userId) :=
    (((spares_modify _).trans (spares_sendEnvelope hne _ _)).trans (spares_modify _)).trans
      (hmotd _)
  have hsnapshot (sv : Server) (users : List Str) :
      Spares t sv (sv.sendPresenceSnapshot codec d s users) :=
    .foldl fun _ _ _ _ => ⟨spares_send (Or.inl hne) _, fun _ => Iff.rfl⟩
  have hreplay (sv : Server) : Spares t sv (sv.deliverOffline codec d s userId) := by
    unfold deliverOffline
    rcases OfflineStore.fetchAndDelete sv.db userId d.nowUnix with ⟨payloads, db⟩
    exact (spares_setDb db).trans (spares_foldl_send hne _)
  have htraffic (sv : Server) : Spares t sv (sv.startTraffic codec d s userId) :=
    (((spares_modify _).trans (spares_modify _)).trans (hreplay _)).trans
      (spares_broadcastPresence _ _)
  exact (henter.trans ((spares_register hne userId).trans (hsnapshot _ _))).trans (htraffic _)

theorem spares_handleAuthResponse (hne : s ≠ t) (auth : AuthResponse) :
    Spares t sv (sv.handleAuthResponse codec crypto d s x auth) := by
  unfold handleAuthResponse
  split_ifs
  · exact spares_sendError_disconnect hne _ _
  · exact spares_authFail hne _ _
  · exact spares_sendError_disconnect hne _ _
  · exact spares_sendError_disconnect hne _ _
  · exact spares_authFail hne _ _
  · unfold onVerdict
    split
    · exact (spares_setDb _).trans (spares_establish hne _)
    · exact spares_authFail hne _ _
    · exact spares_sendError_disconnect hne _ _
    · exact spares_setDb _

/-! ## Envelopes of others -/

theorem spares_handlePayload {α : Type} (hne : s ≠ t) (env : Envelope) (wire : Wire α)
    (code : UInt32) (message : String) {handle : α → Server} (h : ∀ m, Spares t sv (handle m)) :
    Spares t sv (sv.handlePayload codec d s env wire code message handle) := by
  unfold handlePayload
  split
  · exact spares_sendError hne _ _
  · exact h _

theorem spares_ifAuthenticated (hne : s ≠ t) (code : UInt32) {handled : Server}
    (h : Spares t sv handled) : Spares t sv (sv.ifAuthenticated codec d s x code handled) := by
  unfold ifAuthenticated
  split_ifs
  · exact h
  · exact spares_sendError hne _ _

theorem spares_ifAllowed (hne : s ≠ t) {handled : Server → Server}
    (h : ∀ sv, Spares t sv (handled sv)) :
    Spares t sv (sv.ifAllowed codec d s x handled) := by
  unfold ifAllowed
  have hallow := @spares_allowMessage d sv s t x
  revert hallow
  rcases sv.allowMessage d s x with ⟨allowed, sv₁⟩
  intro hallow
  cases allowed with
  | false => exact hallow.trans (spares_sendError hne _ _)
  | true => exact hallow.trans (h sv₁)

theorem spares_handleEnvelope (hne : s ≠ t) (env : Envelope) :
    Spares t sv (sv.handleEnvelope codec crypto d s x env) := by
  unfold handleEnvelope
  cases env.type with
  | hello =>
    dsimp only
    split_ifs
    · split
      · exact spares_sendError_disconnect hne _ _
      · exact spares_handleHello hne _
    · exact .refl t sv
  | authResponse =>
    dsimp only
    split_ifs
    · split
      · exact spares_sendError_disconnect hne _ _
      · exact spares_handleAuthResponse hne _
    · exact .refl t sv
  | ping =>
    dsimp only
    split_ifs
    · exact (spares_modify _).trans (spares_send (Or.inl hne) _)
    · exact .refl t sv
  | pong => exact spares_modify _
  | chatEnvelope =>
    exact spares_ifAuthenticated hne _ (spares_ifAllowed hne fun _ =>
      spares_handlePayload hne _ _ _ _ fun _ => spares_handleChat hne _ _)
  | voiceSignal =>
    exact spares_ifAuthenticated hne _ (spares_ifAllowed hne fun _ =>
      spares_handlePayload hne _ _ _ _ fun _ => spares_handleVoiceSignal hne _ _)
  | voiceRoomJoin =>
    dsimp only
    split_ifs
    · exact spares_handlePayload hne _ _ _ _ fun _ => spares_handleVoiceRoomJoin hne _
    · exact .refl t sv
  | voiceRoomLeave =>
    dsimp only
    split_ifs
    · exact spares_handlePayload hne _ _ _ _ fun _ => spares_handleVoiceRoomLeave _
    · exact .refl t sv
  | keyUpload =>
    exact spares_ifAuthenticated hne _
      (spares_handlePayload hne _ _ _ _ fun _ => spares_handleKeyUpload _)
  | keyRequest =>
    exact spares_ifAuthenticated hne _
      (spares_handlePayload hne _ _ _ _ fun _ => spares_handleKeyRequest hne _)
  | command =>
    exact spares_ifAuthenticated hne _
      (spares_handlePayload hne _ _ _ _ fun _ => spares_handleCommand hne _)
  | fileUpload =>
    refine spares_ifAuthenticated hne _ ?_
    unfold handleFileUploadPayload
    split_ifs
    · exact spares_sendError hne _ _
    · split
      · exact spares_handleFileUpload hne _
      · split
        · exact spares_handleFileRequest hne _
        · exact spares_sendError hne _ _
  | fileDownload =>
    exact spares_ifAuthenticated hne _
      (spares_handlePayload hne _ _ _ _ fun _ => spares_handleFileDownload hne _)
  | authChallenge | authOk | authFail | keyBundle | presence | voiceRoomState | commandResponse
  | nickChange | fileChunk | fileProgress | fileComplete | fileError | motd | error | other =>
    exact .refl t sv

theorem spares_onFrameReceived (hne : s ≠ t) (data : Bytes) :
    Spares t sv (sv.onFrameReceived codec crypto d s x data) := by
  unfold onFrameReceived
  split
  · exact spares_sendError hne _ _
  · exact spares_handleEnvelope hne _

theorem spares_onTimer (hne : s ≠ t) (wait : TimerWait) :
    Spares t sv (sv.onTimer codec d s x wait) := by
  have hreported (sv : Server) : Spares t sv (sv.onSessionDisconnected codec d s) :=
    spares_onSessionDisconnected
  unfold onTimer
  dsimp only
  split
  · exact spares_modify _
  · cases wait with
    | timeout => exact (spares_modify _).trans (hreported _)
    | interval =>
      dsimp only
      split_ifs
      · exact (spares_modify _).trans (hreported _)
      · exact ((spares_modify _).trans (spares_modify _)).trans (spares_send (Or.inl hne) _)

end Spares

/-! ## Events of a session -/

/-- The session whose operation the event ends. -/
def eventOwner : Event → Option SessionId
  | .handshakeDone s _ | .headerRead s _ | .payloadRead s _ | .writeDone s _ | .disconnectRuns s
  | .timerExpires s | .timerFires s _ => some s
  | _ => none

section Events

variable {codec : Codec} {crypto : Crypto} {d : Draws} {sv sv' sv'' : Server} {s t : SessionId}
  {x : Session} {i : Input}

theorem spares_handshake (ok : Bool) : Spares t sv (sv.onHandshake codec d s ok) := by
  unfold onHandshake
  dsimp only
  split_ifs
  · exact ((spares_modify _).trans (spares_modify _)).trans spares_doReadFrameHeader
  · exact (spares_modify _).trans spares_onSessionDisconnected

theorem spares_onWritten (ok : Bool) : Spares t sv (sv.onWritten codec d s ok) := by
  unfold onWritten
  dsimp only
  split_ifs
  · exact spares_modify _
  · exact (spares_modify _).trans spares_onSessionDisconnected

theorem spares_shutdown : Spares t sv sv.onShutdown := by
  unfold onShutdown
  split_ifs
  · exact .refl t sv
  · have hstop : Spares t sv { sv with shuttingDown := true, accepting := false } :=
      .of_eq rfl rfl rfl
    have hclosed : Spares t { sv with shuttingDown := true, accepting := false }
        (sv.usersBySession.keys.foldl (fun sv s => sv.disconnect s)
          { sv with shuttingDown := true, accepting := false }) :=
      .foldl fun _ _ _ _ => ⟨spares_disconnect, fun _ => Iff.rfl⟩
    have hcleared (sv : Server) : Spares t sv
        { sv with sessionsByUser := ∅, usersBySession := ∅ } := by
      refine ⟨fun h => ?_, fun _ => rfl⟩
      rw [registered_iff] at h
      rcases h with h | ⟨userId, h⟩ <;> cases h
    exact (hstop.trans hclosed).trans (hcleared _)

/-- What another session does, or none. -/
theorem spares_perform (d : Draws) {event : Event} (h : eventOwner event ≠ some t) :
    Spares t sv (sv.perform codec crypto d event) := by
  have hother {s : SessionId} (howner : eventOwner event = some s) : s ≠ t := by
    rintro rfl
    exact h howner
  cases event with
  | accept ip =>
    unfold perform onAccept
    dsimp only
    split_ifs <;> exact .of_eq rfl rfl rfl
  | acceptError | setMaxConnections | setMsgRate | setMotd | cleanup => exact .of_eq rfl rfl rfl
  | handshakeDone s ok => exact spares_handshake ok
  | headerRead s size =>
    unfold perform onHeader
    cases size with
    | none => exact (spares_modify _).trans spares_onSessionDisconnected
    | some size =>
      dsimp only
      split_ifs
      · exact ((spares_modify _).trans (spares_sendError (hother rfl) _ _)).trans
          spares_onSessionDisconnected
      · exact (spares_modify _).trans spares_onSessionDisconnected
      · exact (spares_modify _).trans (spares_modify _)
  | payloadRead s data =>
    unfold perform
    dsimp only
    split
    · exact .refl t sv
    · unfold onPayload
      cases data with
      | none => exact (spares_modify _).trans spares_onSessionDisconnected
      | some data =>
        exact ((spares_modify _).trans (spares_onFrameReceived (hother rfl) data)).trans
          spares_doReadFrameHeader
  | writeDone s ok => exact spares_onWritten ok
  | disconnectRuns s => exact spares_modify _
  | timerExpires s => exact spares_modify _
  | timerFires s wait =>
    unfold perform
    dsimp only
    split
    · exact .refl t sv
    · exact spares_onTimer (hother rfl) wait
  | adminDisconnect userId =>
    unfold perform
    dsimp only
    split_ifs
    · exact .refl t sv
    · split
      · exact .refl t sv
      · exact spares_disconnect
  | shutdown => exact spares_shutdown

/-! ## Events of a stranger -/

/-- Like `Spares`, but the session may be told what comes before a login. -/
structure Curtly (t : SessionId) (sv sv' : Server) : Prop where
  registered : sv'.Registered t → sv.Registered t
  curt : ¬ sv.Registered t → ∀ e ∈ sentTo t sv', e ∈ sentTo t sv ∨ e.2.type.Curt

theorem Spares.curtly (h : Spares t sv sv') : Curtly t sv sv' where
  registered := h.registered
  curt hreg _ he := Or.inl (h.silent hreg ▸ he)

theorem Curtly.trans (h : Curtly t sv sv') (h' : Curtly t sv' sv'') : Curtly t sv sv'' where
  registered := h.registered ∘ h'.registered
  curt hreg e he := (h'.curt (mt h.registered hreg) e he).elim (h.curt hreg e) Or.inr

theorem curtly_sendEnvelope {type : MessageType} (htype : type.Curt) (payload : Bytes) :
    Curtly t sv (sv.sendEnvelope d t type payload) := by
  unfold sendEnvelope
  split
  · exact (Spares.refl t sv).curtly
  · refine ⟨id, fun _ e he => ?_⟩
    obtain ⟨he, howner⟩ := List.mem_filter.1 he
    rcases List.mem_append.1 he with hold | hnew
    · exact Or.inl (List.mem_filter.2 ⟨hold, howner⟩)
    · rw [List.mem_singleton.1 hnew]
      exact Or.inr htype

theorem curtly_sendError (code : UInt32) (message : String) :
    Curtly t sv (sv.sendError codec d t code message) :=
  curtly_sendEnvelope (Or.inr (Or.inr rfl)) _

theorem curtly_sendError_disconnect (code : UInt32) (message : String) :
    Curtly t sv ((sv.sendError codec d t code message).disconnect t) :=
  (curtly_sendError code message).trans spares_disconnect.curtly

theorem curtly_authFail (code : UInt32) (message : Str) :
    Curtly t sv (sv.authFail codec d t code message) :=
  (curtly_sendEnvelope (Or.inr (Or.inl rfl)) _).trans spares_disconnect.curtly

theorem curtly_handleHello (hello : Hello) : Curtly t sv (sv.handleHello codec d t hello) := by
  unfold handleHello
  split_ifs
  · exact curtly_sendError_disconnect _ _
  · exact ((spares_modify _).curtly.trans (curtly_sendEnvelope (Or.inl rfl) _)).trans
      (spares_modify _).curtly

/-- A login that is refused, or accepted. -/
theorem curtly_handleAuthResponse (auth : AuthResponse) :
    Curtly t sv (sv.handleAuthResponse codec crypto d t x auth) ∨
      ∃ db, sv.handleAuthResponse codec crypto d t x auth =
        establish codec d { sv with db := db } t auth.userId := by
  unfold handleAuthResponse
  split_ifs
  · exact Or.inl (curtly_sendError_disconnect _ _)
  · exact Or.inl (curtly_authFail _ _)
  · exact Or.inl (curtly_sendError_disconnect _ _)
  · exact Or.inl (curtly_sendError_disconnect _ _)
  · exact Or.inl (curtly_authFail _ _)
  · cases registerOrVerify crypto d sv.db auth with
    | accept db => exact Or.inr ⟨db, rfl⟩
    | fail code message => exact Or.inl (curtly_authFail _ _)
    | insertFailed => exact Or.inl (curtly_sendError_disconnect _ _)
    | threw db => exact Or.inl (spares_setDb db).curtly

theorem curtly_ifAuthenticated (hstate : x.state ≠ .established) (code : UInt32)
    {handled : Server} : Curtly t sv (sv.ifAuthenticated codec d t x code handled) := by
  unfold ifAuthenticated
  rw [if_neg hstate]
  exact curtly_sendError _ _

/-- A frame of a stranger is refused, or is its login. -/
theorem curtly_handleEnvelope (hstate : x.state ≠ .established) (env : Envelope) :
    Curtly t sv (sv.handleEnvelope codec crypto d t x env) ∨
      ∃ db userId, sv.handleEnvelope codec crypto d t x env =
        establish codec d { sv with db := db } t userId := by
  unfold handleEnvelope
  cases env.type with
  | hello =>
    dsimp only
    split_ifs
    · split
      · exact Or.inl (curtly_sendError_disconnect _ _)
      · exact Or.inl (curtly_handleHello _)
    · exact Or.inl (Spares.refl t sv).curtly
  | authResponse =>
    dsimp only
    split_ifs
    · split
      · exact Or.inl (curtly_sendError_disconnect _ _)
      · rename_i auth _
        exact (curtly_handleAuthResponse auth).imp_right fun ⟨db, h⟩ => ⟨db, auth.userId, h⟩
    · exact Or.inl (Spares.refl t sv).curtly
  | ping | voiceRoomJoin | voiceRoomLeave =>
    dsimp only
    rw [if_neg hstate]
    exact Or.inl (Spares.refl t sv).curtly
  | pong => exact Or.inl (spares_modify _).curtly
  | chatEnvelope | voiceSignal | keyUpload | keyRequest | command | fileUpload | fileDownload =>
    exact Or.inl (curtly_ifAuthenticated hstate _)
  | authChallenge | authOk | authFail | keyBundle | presence | voiceRoomState | commandResponse
  | nickChange | fileChunk | fileProgress | fileComplete | fileError | motd | error | other =>
    exact Or.inl (Spares.refl t sv).curtly

theorem established_establish {userId : Str} (found : sv.sessions[t]? = some x) :
    ∃ x', (establish codec d sv t userId).sessions[t]? = some x' ∧ x'.state = .established := by
  have hpulse : (establish codec d sv t userId).meters.pulse t =
      some (started sv.meters.msgRatePerSec d x.pulse) := by
    rw [meters_establish, onPulse_own, pulse_of_found found, Option.map_some]
  obtain ⟨x', found', hx'⟩ := found_of_pulse hpulse
  exact ⟨x', found', congrArg Pulse.state hx'⟩

/-- Nobody has logged in on the session. -/
def Stranger (t : SessionId) (sv : Server) : Prop :=
  ¬ sv.Registered t ∧ ∀ x, sv.sessions[t]? = some x → x.state ≠ .established

/-- A handler of a stranger that does not make it an established session. -/
theorem curtly_perform (d : Draws) {event : Event} (hstranger : Stranger t sv)
    (howner : eventOwner event = some t)
    (hafter : ∀ x, (sv.perform codec crypto d event).sessions[t]? = some x →
      x.state ≠ .established) : Curtly t sv (sv.perform codec crypto d event) := by
  cases event with
  | accept | acceptError | setMaxConnections | setMsgRate | setMotd | cleanup | adminDisconnect
  | shutdown => cases howner
  | handshakeDone s ok => exact (spares_handshake ok).curtly
  | headerRead s size =>
    cases howner
    unfold perform onHeader
    cases size with
    | none => exact ((spares_modify _).trans spares_onSessionDisconnected).curtly
    | some size =>
      dsimp only
      split_ifs
      · exact ((spares_modify _).curtly.trans (curtly_sendError _ _)).trans
          spares_onSessionDisconnected.curtly
      · exact ((spares_modify _).trans spares_onSessionDisconnected).curtly
      · exact ((spares_modify _).trans (spares_modify _)).curtly
  | payloadRead s data =>
    cases howner
    unfold perform at hafter ⊢
    dsimp only at hafter ⊢
    split
    · exact (Spares.refl t sv).curtly
    · rename_i x found
      rw [found] at hafter
      have hstate := hstranger.2 x found
      unfold onPayload at hafter ⊢
      cases data with
      | none => exact ((spares_modify _).trans spares_onSessionDisconnected).curtly
      | some data =>
        dsimp only at hafter ⊢
        have hstop : Spares t sv (sv.modify t fun x => { x with reading := none }) :=
          spares_modify _
        refine (hstop.curtly.trans ?_).trans spares_doReadFrameHeader.curtly
        unfold onFrameReceived at hafter ⊢
        split
        · exact curtly_sendError _ _
        · rename_i env hparse
          refine (curtly_handleEnvelope hstate env).resolve_right ?_
          rintro ⟨db, userId, hestablish⟩
          rw [hparse] at hafter
          dsimp only at hafter
          rw [hestablish] at hafter
          have hread : ({ (sv.modify t fun x => { x with reading := none }) with
              db := db } : Server).sessions[t]? = some { x with reading := none } := by
            show (sv.modify t fun x => { x with reading := none }).sessions[t]? = _
            rw [sessions_modify, if_pos rfl, found, Option.map_some]
          obtain ⟨x', found', hstate'⟩ := @established_establish codec d _ t _ userId hread
          have hlast : ((establish codec d { (sv.modify t fun x => { x with reading := none }) with
              db := db } t userId).doReadFrameHeader t).sessions[t]? =
                some { x' with reading := some .header } := by
            unfold doReadFrameHeader
            rw [sessions_modify, if_pos rfl, found', Option.map_some, hstate', if_neg nofun]
          exact hafter _ hlast hstate'
  | writeDone s ok => exact (spares_onWritten ok).curtly
  | disconnectRuns s => exact (spares_modify _).curtly
  | timerExpires s => exact (spares_modify _).curtly
  | timerFires s wait =>
    cases howner
    unfold perform
    dsimp only
    split
    · exact (Spares.refl t sv).curtly
    · rename_i x found
      unfold onTimer
      dsimp only
      rw [if_pos (hstranger.2 x found)]
      exact (spares_modify _).curtly

/-- A step logs the stranger in, or leaves it one and tells it nothing more. -/
theorem stranger_step (hwf : WellFormed sv) (hstranger : Stranger t sv) :
    (∃ nonce auth, AcceptsAuth codec crypto t sv i nonce auth) ∨
      Stranger t (sv.step codec crypto i) ∧ Curtly t sv (sv.step codec crypto i) := by
  by_cases hestablished : ∃ x, (sv.step codec crypto i).sessions[t]? = some x ∧
      x.state = .established
  · left
    obtain ⟨x, found, hstate⟩ := hestablished
    have hprogress := @progress codec crypto sv i hwf t
    rw [core_of_sessions found] at hprogress
    have hafter : x.core.state = .established := hstate
    cases hc : sv.core t with
    | none =>
      rw [hc] at hprogress
      generalize x.core = c' at hprogress hafter
      cases hprogress with
      | accepted => cases hafter
    | some c =>
      obtain ⟨x₀, found₀, rfl⟩ := core_eq_some.1 hc
      have hbefore : x₀.core.state ≠ .established := hstranger.2 x₀ found₀
      rw [hc] at hprogress
      cases hprogress with
      | same _ _ state => exact absurd (state.symm.trans hafter) hbefore
      | handshake _ _ _ after => cases after.symm.trans hafter
      | hello _ _ _ after => cases after.symm.trans hafter
      | auth _ _ auth _ _ _ _ accepts => exact ⟨_, auth, accepts⟩
      | dead _ _ after => cases after.symm.trans hafter
  · right
    have hafter : ∀ x, (sv.step codec crypto i).sessions[t]? = some x →
        x.state ≠ .established := fun x found hstate => hestablished ⟨x, found, hstate⟩
    have hcurtly : Curtly t sv (sv.step codec crypto i) := by
      unfold step at hafter ⊢
      split_ifs at hafter ⊢
      · by_cases howner : eventOwner i.event = some t
        · exact curtly_perform i.draws hstranger howner hafter
        · exact (spares_perform i.draws howner).curtly
      · exact (Spares.refl t sv).curtly
    exact ⟨⟨mt hcurtly.registered hstranger.1, hafter⟩, hcurtly⟩

end Events

/-- The session has logged in during the run. -/
def HasLoggedIn (codec : Codec) (crypto : Crypto) (sv₀ : Server) (is : List Input)
    (t : SessionId) : Prop :=
  ∃ before i after nonce auth, is = before ++ i :: after ∧
    AcceptsAuth codec crypto t (final (step codec crypto) sv₀ before) i nonce auth

/-- A client that has not answered its challenge with a signature of the user's key is not in the
registry, and was told nothing but its challenge and that its messages are refused. -/
theorem strangers_are_told_nothing (codec : Codec) (crypto : Crypto) (config : Config)
    (db : Database) (t : SessionId) (is : List Input) :
    HasLoggedIn codec crypto (start config db) is t ∨
      (¬ (final (step codec crypto) (start config db) is).Registered t ∧
        ∀ e ∈ (final (step codec crypto) (start config db) is).written, e.1 = t →
          e.2.type.Curt) := by
  let H (is : List Input) (sv : Server) : Prop :=
    HasLoggedIn codec crypto (start config db) is t ∨
      WellFormed sv ∧ Stranger t sv ∧ ∀ e ∈ sentTo t sv, e.2.type.Curt
  have hstart : H [] (start config db) := by
    refine Or.inr ⟨wellFormed_start config db, ⟨?_, fun _ h => nomatch h⟩,
      fun _ h => absurd h List.not_mem_nil⟩
    rw [registered_iff]
    rintro (h | ⟨userId, h⟩) <;> cases h
  have hstep (is : List Input) (i : Input)
      (h : H is (final (step codec crypto) (start config db) is)) :
      H (is ++ [i]) ((final (step codec crypto) (start config db) is).step codec crypto i) := by
    rcases h with ⟨before, j, after, nonce, auth, rfl, haccepts⟩ | ⟨hwf, hstranger, hcurt⟩
    · exact Or.inl ⟨before, j, after ++ [i], nonce, auth, List.append_assoc _ _ _, haccepts⟩
    · rcases @stranger_step codec crypto _ t i hwf hstranger with
        ⟨nonce, auth, haccepts⟩ | ⟨hstill, htold⟩
      · exact Or.inl ⟨is, i, [], nonce, auth, rfl, haccepts⟩
      · exact Or.inr ⟨wellFormed_step codec crypto i hwf, hstill, fun e he =>
          (htold.curt hstranger.1 e he).elim (hcurt e) id⟩
  have hrun : H is (final (step codec crypto) (start config db) is) :=
    history_induction hstart hstep is
  refine hrun.imp_right ?_
  rintro ⟨-, ⟨hunregistered, -⟩, hcurt⟩
  exact ⟨hunregistered, fun e he howner =>
    hcurt e (List.mem_filter.2 ⟨he, decide_eq_true howner⟩)⟩

end Server

end Ircord

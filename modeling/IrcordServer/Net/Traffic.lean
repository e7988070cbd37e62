import IrcordServer.Db.OtherTables
import IrcordServer.Net.Authentication

/-!
# What handlers do to the log, the tables and the uploads

Most handlers write envelopes of a few types only, and leave the files and the uploads alone
(`Tolerates`).  Those that relay an envelope, replay stored ones or transfer files are the
exceptions: a property of a step needs an argument for these, and gets the others from here.
-/

open Container

namespace Ircord

/-- The envelope was made by the server, and is no piece of a file. -/
def MessageType.Ordinary (type : MessageType) : Prop :=
  type ≠ .chatEnvelope ∧ type ≠ .voiceSignal ∧ type ≠ .fileChunk

instance (type : MessageType) : Decidable type.Ordinary :=
  inferInstanceAs (Decidable (_ ∧ _ ∧ _))

/-- Every offline message was there before, or is a nickname change. -/
def StoresNickChanges (codec : Codec) (db db' : Database) : Prop :=
  ∀ r ∈ db'.offlineMessages.rows, r ∈ db.offlineMessages.rows ∨
    ∃ change, r.2.payload =
      codec.envelope.serialize (CommandHandler.nickChangeEnvelope codec change)

theorem storesNickChanges_of_eq {codec : Codec} {db db' : Database}
    (h : db'.offlineMessages = db.offlineMessages) : StoresNickChanges codec db db' := by
  intro r hr
  rw [h] at hr
  exact Or.inl hr

namespace CommandHandler

theorem Notice.ordinary {v : Services} {caller : Caller} {session : SessionId} {env : Envelope}
    (h : Notice v caller (.send session env)) : env.type.Ordinary := by
  cases h with
  | response => exact show MessageType.Ordinary .commandResponse by decide
  | nickChange => exact show MessageType.Ordinary .nickChange by decide

theorem TableChange.files {v : Services} {caller : Caller} {db db' : Database}
    (h : TableChange v caller db db') :
    db'.files = db.files ∧ db'.fileChunks = db.fileChunks := by
  induction h with
  | same => exact ⟨rfl, rfl⟩
  | store db' userId change before ih =>
    have hsave := OfflineStore.files_save db' userId
      (v.codec.envelope.serialize (nickChangeEnvelope v.codec change)) v.nowUnix
    exact ⟨hsave.1.trans ih.1, hsave.2.trans ih.2⟩
  | password oldPassword =>
    have honly := @UserStore.onlyUsers_updatePassword db v.crypto caller.userId oldPassword v.pwhash
    exact ⟨honly.files, honly.fileChunks⟩
  | resetdb db' admin deleted =>
    have honly := Database.onlyUsers_deleteAllUsers deleted
    exact ⟨honly.files, honly.fileChunks⟩

theorem TableChange.stores {v : Services} {caller : Caller} {db db' : Database}
    (h : TableChange v caller db db') : StoresNickChanges v.codec db db' := by
  induction h with
  | same => exact storesNickChanges_of_eq rfl
  | store db' userId change before ih =>
    intro r hr
    rcases OfflineStore.mem_rows_save hr with hr | hr
    · exact ih r hr
    · exact Or.inr ⟨change, hr⟩
  | password oldPassword =>
    exact storesNickChanges_of_eq
      (UserStore.onlyUsers_updatePassword _ _ _ _).offlineMessages
  | resetdb db' admin deleted =>
    intro r hr
    have hr' : r ∈ db'.offlineMessages.rows := (Sql.Table.mem_retain.1 hr).1
    rw [(Database.onlyUsers_deleteAllUsers deleted).offlineMessages] at hr'
    exact Or.inl hr'

end CommandHandler

namespace VoiceRoomManager

theorem RoomMessage.ordinary {findSession : Str → Option SessionId} {session : SessionId}
    {env : Envelope} (h : RoomMessage findSession (.send session env)) : env.type.Ordinary := by
  cases h with
  | send session type payload found kind =>
    simp only [List.mem_cons, List.not_mem_nil, or_false] at kind
    rcases kind with rfl | rfl | rfl
    · exact show MessageType.Ordinary .voiceRoomJoin by decide
    · exact show MessageType.Ordinary .voiceRoomLeave by decide
    · exact show MessageType.Ordinary .voiceRoomState by decide

end VoiceRoomManager

/-- The tables that a verdict leaves. -/
def AuthVerdict.tables : AuthVerdict → Option Database
  | .accept db => some db
  | .threw db => some db
  | _ => none

section Verdict

variable {crypto : Crypto} {d : Draws} {db db' : Database} {auth : AuthResponse}

theorem onlyUsers_storeSignedPrekey (h : storeSignedPrekey d db auth = .ok db') :
    Database.OnlyUsers db db' := by
  unfold storeSignedPrekey at h
  split_ifs at h
  · cases h
    exact .refl db
  · exact Database.onlyUsers_replaceSignedPrekey h

theorem onlyUsers_registerUser (h : (registerUser d db auth).tables = some db') :
    Database.OnlyUsers db db' := by
  unfold registerUser at h
  split at h
  · cases h
  · rename_i db₁ hinsert
    have honly : Database.OnlyUsers db db₁ := Database.onlyUsers_insertUser hinsert
    split at h
    · cases h
      exact honly
    · rename_i db₂ hprekey
      have honly₂ := honly.trans (onlyUsers_storeSignedPrekey hprekey)
      split_ifs at h
      · cases h
        exact honly₂
      · cases h
        exact honly₂.trans (UserStore.onlyUsers_setPassword _ _)

theorem onlyUsers_recoverIdentityKey (h : (recoverIdentityKey crypto d db auth).tables = some db') :
    Database.OnlyUsers db db' := by
  unfold recoverIdentityKey at h
  have hclear := @UserStore.onlyUsers_clearKeyMaterial db auth.userId
  split_ifs at h
  · dsimp only at h
    split at h
    · cases h
      exact hclear
    · rename_i db₁ hupdate
      have honly := hclear.trans (UserStore.onlyUsers_updateIdentityKey hupdate)
      split at h
      · cases h
        exact honly
      · rename_i db₂ hprekey
        cases h
        exact honly.trans (onlyUsers_storeSignedPrekey hprekey)
  · cases h
  · cases h

/-- The user is looked up, registered or verified in the users' tables. -/
theorem onlyUsers_registerOrVerify (h : (registerOrVerify crypto d db auth).tables = some db') :
    Database.OnlyUsers db db' := by
  unfold registerOrVerify at h
  split at h
  · exact onlyUsers_registerUser h
  · split_ifs at h
    · exact onlyUsers_recoverIdentityKey h
    · cases h
      exact UserStore.onlyUsers_setPassword _ _
    · cases h
      exact .refl db

end Verdict

namespace Server

/-- A relation between the server before and after that allows what a handler does without the
tables: writing ordinary envelopes, changing sessions but for their uploads, and changing everything
else. -/
structure Speaks (R : Server → Server → Prop) : Prop where
  refl : ∀ sv, R sv sv
  trans : ∀ {sv sv' sv''}, R sv sv' → R sv' sv'' → R sv sv''
  modify : ∀ (sv : Server) (t : SessionId) (f : Session → Session),
    (∀ x, (f x).activeUploads = x.activeUploads) → R sv (sv.modify t f)
  log : ∀ (sv : Server) (t : SessionId) (env : Envelope), env.type.Ordinary →
    R sv { sv with written := sv.written ++ [(t, env)] }
  rest : ∀ (sv sv' : Server), sv'.sessions = sv.sessions → sv'.db = sv.db →
    sv'.written = sv.written → R sv sv'

/-- The same for the ordinary handlers, which change the tables but for the files, and store nothing
but nickname changes. -/
structure Tolerates (codec : Codec) (R : Server → Server → Prop) : Prop extends Speaks R where
  setDb : ∀ (sv : Server) (db : Database), StoresNickChanges codec sv.db db →
    db.files = sv.db.files → db.fileChunks = sv.db.fileChunks → R sv { sv with db := db }

namespace Speaks

variable {codec : Codec} {R : Server → Server → Prop} {d : Draws} {sv : Server} {s : SessionId}
  {x : Session}

theorem send (hR : Speaks R) (sv : Server) (t : SessionId) {env : Envelope}
    (henv : env.type.Ordinary) : R sv (sv.send t env) :=
  hR.trans (hR.modify sv t (fun x => { x with writes := x.writes + 1 }) fun _ => rfl)
    (hR.log _ t env henv)

theorem disconnect (hR : Speaks R) (sv : Server) (t : SessionId) :
    R sv (sv.disconnect t) :=
  hR.modify sv t _ fun _ => rfl

theorem sendEnvelope (hR : Speaks R) (sv : Server) (t : SessionId) {type : MessageType}
    (htype : type.Ordinary) (payload : Bytes) : R sv (sv.sendEnvelope d t type payload) := by
  unfold Server.sendEnvelope
  split
  · exact hR.refl sv
  · exact hR.trans (hR.modify sv t (fun x => { x with nextSeq := x.nextSeq + 1 }) fun _ => rfl)
      (hR.send _ t htype)

theorem sendError (hR : Speaks R) (sv : Server) (t : SessionId) (code : UInt32)
    (message : String) : R sv (sv.sendError codec d t code message) :=
  hR.sendEnvelope sv t (by decide) _

theorem sendError_disconnect (hR : Speaks R) (sv : Server) (t : SessionId)
    (code : UInt32) (message : String) :
    R sv ((sv.sendError codec d t code message).disconnect t) :=
  hR.trans (hR.sendError sv t code message) (hR.disconnect _ t)

theorem authFail (hR : Speaks R) (sv : Server) (t : SessionId) (code : UInt32)
    (message : Str) : R sv (sv.authFail codec d t code message) :=
  hR.trans (hR.sendEnvelope sv t (by decide) _) (hR.disconnect _ t)

theorem foldl (hR : Speaks R) {β : Type} {f : Server → β → Server}
    (hf : ∀ sv b, R sv (f sv b)) (bs : List β) (sv : Server) : R sv (bs.foldl f sv) := by
  induction bs generalizing sv with
  | nil => exact hR.refl sv
  | cons b bs ih => exact hR.trans (hf sv b) (ih _)

theorem broadcast (hR : Speaks R) (sv : Server) {env : Envelope}
    (henv : env.type.Ordinary) (exclude : Option SessionId) : R sv (sv.broadcast env exclude) :=
  hR.foldl (fun sv t => hR.send sv t henv) _ sv

theorem broadcastPresence (hR : Speaks R) (sv : Server) (update : PresenceUpdate)
    (exclude : Option SessionId) : R sv (sv.broadcastPresence codec d update exclude) :=
  hR.broadcast sv (show MessageType.Ordinary .presence by decide) exclude

theorem run (hR : Speaks R) {actions : List Action}
    (h : ∀ t env, .send t env ∈ actions → env.type.Ordinary) (sv : Server) :
    R sv (sv.run actions) := by
  induction actions generalizing sv with
  | nil => exact hR.refl sv
  | cons a actions ih =>
    have hrest := ih fun t env hmem => h t env (List.mem_cons_of_mem a hmem)
    cases a with
    | send t env => exact hR.trans (hR.send sv t (h t env List.mem_cons_self)) (hrest _)
    | disconnect t reason => exact hR.trans (hR.disconnect sv t) (hrest _)

theorem allowMessage (hR : Speaks R) {allowed : Bool} {sv' : Server}
    (h : sv.allowMessage d s x = (allowed, sv')) : R sv sv' := by
  unfold Server.allowMessage at h
  split at h
  · cases h
    exact hR.refl sv
  · cases h
    exact hR.modify sv s _ fun _ => rfl

/-- The actions of the voice rooms, after the rooms are put back. -/
theorem voice (hR : Speaks R) (voice : VoiceRoomManager) {actions : List Action}
    (h : ∀ a ∈ actions, VoiceRoomManager.RoomMessage sv.findSession a) :
    R sv ({ sv with voice := voice }.run actions) :=
  hR.trans (hR.rest sv { sv with voice := voice } rfl rfl rfl)
    (hR.run (fun _ _ hmem => (h _ hmem).ordinary) _)

theorem leaveVoiceRooms (hR : Speaks R) (sv : Server) (userId : Str) :
    R sv (sv.leaveVoiceRooms codec userId) :=
  hR.voice _ (VoiceRoomManager.roomMessage_onDisconnect codec sv.findSession sv.voice userId)

theorem enterEstablished (hR : Speaks R) (userId : Str) :
    R sv (sv.enterEstablished codec d s userId) := by
  have hsend (sv : Server) {type : MessageType} (h : type.Ordinary) (payload : Bytes) :
      R sv (sv.sendEnvelope d s type payload) := hR.sendEnvelope sv s h payload
  have hmotd (sv : Server) : R sv (sv.sendMotd codec d s) := by
    unfold sendMotd
    split_ifs
    · exact hR.refl sv
    · exact hsend sv (by decide) _
  have huser : R sv (sv.modify s fun x => { x with userId := userId }) :=
    hR.modify sv s _ fun _ => rfl
  have hok := hR.trans huser (hsend _ (show MessageType.Ordinary .authOk by decide) [])
  exact hR.trans (hR.trans hok (hR.modify _ s (fun x => { x with state := .established })
    fun _ => rfl)) (hmotd _)

theorem onSessionAuthenticated (hR : Speaks R) (sv : Server) (userId : Str) :
    R sv (sv.onSessionAuthenticated codec d s userId) := by
  have hregister : R sv (sv.register s userId) := by
    unfold register
    split
    · exact hR.rest _ _ rfl rfl rfl
    · exact hR.trans (hR.disconnect sv _) (hR.rest _ _ rfl rfl rfl)
  exact hR.trans hregister (hR.foldl
    (fun sv userId => hR.send sv s (show MessageType.Ordinary .presence by decide)) _ _)

theorem onSessionDisconnected (hR : Speaks R) (sv : Server) (t : SessionId) :
    R sv (sv.onSessionDisconnected codec d t) := by
  have hunregister : R sv (sv.unregister t) := by
    unfold unregister
    dsimp only
    split <;> exact hR.rest _ _ rfl rfl rfl
  unfold Server.onSessionDisconnected
  split
  · exact hunregister
  · dsimp only
    split_ifs
    · exact hunregister
    · exact hR.trans (hR.trans hunregister (hR.broadcastPresence _ _ _)) (hR.leaveVoiceRooms _ _)

end Speaks

theorem speaks_db : Speaks fun sv sv' => sv'.db = sv.db where
  refl _ := rfl
  trans h h' := h'.trans h
  modify _ _ _ _ := rfl
  log _ _ _ _ := rfl
  rest _ _ _ hdb _ := hdb

section Replay

variable {codec : Codec} {d : Draws} {sv : Server} {s : SessionId}

theorem db_broadcast (env : Envelope) (exclude : Option SessionId) :
    (sv.broadcast env exclude).db = sv.db := by
  unfold broadcast
  exact speaks_db.foldl (f := fun sv t => sv.send t env) (fun _ _ => rfl) _ _

/-- The replay of stored messages only takes them out of the table. -/
theorem db_deliverOffline (userId : Str) : (sv.deliverOffline codec d s userId).db =
      (OfflineStore.fetchAndDelete sv.db userId d.nowUnix).2 := by
  unfold deliverOffline
  exact speaks_db.foldl (f := fun sv env => sv.send s env) (fun _ _ => rfl) _ _

end Replay

theorem onlyUsers_storeOpks (userId : Str) (opks : List Bytes) (db : Database) :
    Database.OnlyUsers db (storeOpks userId db opks) := by
  induction opks generalizing db with
  | nil => exact .refl db
  | cons opk opks ih =>
    unfold storeOpks
    split
    · exact .refl db
    · rename_i db' hstore
      exact (Database.onlyUsers_insertOneTimePrekey hstore).trans (ih db')

/-- A key upload only changes the tables of users and keys. -/
theorem onlyUsers_handleKeyUpload (d : Draws) (sv : Server) (x : Session) (ku : KeyUpload) :
    ∃ db, Database.OnlyUsers sv.db db ∧ sv.handleKeyUpload d x ku = { sv with db := db } := by
  unfold handleKeyUpload
  dsimp only
  split
  · exact ⟨sv.db, .refl sv.db, rfl⟩
  · rename_i db hsigned
    have honly : Database.OnlyUsers sv.db db := by
      split_ifs at hsigned
      · cases hsigned
        exact .refl _
      · exact Database.onlyUsers_replaceSignedPrekey hsigned
    exact ⟨_, honly.trans (onlyUsers_storeOpks _ _ _), rfl⟩

namespace Speaks

variable {codec : Codec} {crypto : Crypto} {R : Server → Server → Prop} {d : Draws} {sv : Server}
  {s : SessionId} {x : Session}

/-! ## Handlers without the tables -/

theorem handlePing (hR : Speaks R) (env : Envelope) : R sv (sv.handlePing d s x env) :=
  hR.trans (hR.modify sv s (fun x => { x with nextSeq := x.nextSeq + 1 }) fun _ => rfl)
    (hR.send _ s (show MessageType.Ordinary .pong by decide))

theorem handleVoiceRoomJoin (hR : Speaks R) (join : VoiceRoomJoin) :
    R sv (sv.handleVoiceRoomJoin codec d s x join) := by
  have hmessages :=
    VoiceRoomManager.roomMessage_join codec sv.findSession sv.voice join.channelId x.userId
  unfold Server.handleVoiceRoomJoin
  dsimp only
  split_ifs
  · exact hR.trans (hR.voice _ hmessages) (hR.sendEnvelope _ s (by decide) _)
  · exact hR.voice _ hmessages

theorem handleVoiceRoomLeave (hR : Speaks R) (leave : VoiceRoomLeave) :
    R sv (sv.handleVoiceRoomLeave codec x leave) :=
  hR.voice _ (VoiceRoomManager.roomMessage_leave codec sv.findSession sv.voice _ _)

theorem handlePayload (hR : Speaks R) {α : Type} (env : Envelope) (wire : Wire α)
    (code : UInt32) (message : String) {handle : α → Server} (h : ∀ m, R sv (handle m)) :
    R sv (sv.handlePayload codec d s env wire code message handle) := by
  unfold Server.handlePayload
  split
  · exact hR.sendError sv s _ _
  · exact h _

theorem ifAuthenticated (hR : Speaks R) (code : UInt32) {handled : Server}
    (h : x.state = .established → R sv handled) :
    R sv (sv.ifAuthenticated codec d s x code handled) := by
  unfold Server.ifAuthenticated
  split_ifs with hstate
  · exact h hstate
  · exact hR.sendError sv s _ _

theorem ifAllowed (hR : Speaks R) {handled : Server → Server}
    (h : ∀ sv', R sv sv' → R sv' (handled sv')) :
    R sv (sv.ifAllowed codec d s x handled) := by
  unfold Server.ifAllowed
  split
  · rename_i sv' hallow
    exact hR.trans (hR.allowMessage hallow) (hR.sendError sv' s _ _)
  · rename_i sv' hallow
    exact hR.trans (hR.allowMessage hallow) (h sv' (hR.allowMessage hallow))

theorem handleHello (hR : Speaks R) (hello : Hello) :
    R sv (sv.handleHello codec d s hello) := by
  unfold Server.handleHello
  split_ifs
  · exact hR.sendError_disconnect sv s _ _
  · have hnonce : R sv (sv.modify s fun x => { x with authNonce := d.nonce }) :=
      hR.modify sv s _ fun _ => rfl
    have hchallenge (sv : Server) (payload : Bytes) :
        R sv (sv.sendEnvelope d s .authChallenge payload) :=
      hR.sendEnvelope sv s (by decide) payload
    exact hR.trans (hR.trans hnonce (hchallenge _ _)) (hR.modify _ s _ fun _ => rfl)

/-- From `// --- Auth success ---` on; the offline messages are replayed on the way. -/
theorem establish (hR : Speaks R)
    (hreplay : ∀ sv', R sv sv' → ∀ userId, R sv' (sv'.deliverOffline codec d s userId))
    (userId : Str) : R sv (establish codec d sv s userId) := by
  have htraffic (sv₁ : Server) (h : R sv sv₁) : R sv₁ (sv₁.startTraffic codec d s userId) := by
    have htimer : R sv₁ (sv₁.modify s Session.startPingTimer) := hR.modify sv₁ s _ fun _ => rfl
    let limiter := RateLimiter.new sv₁.msgRatePerSec (seconds 1) d.now
    have hlimiter := hR.trans htimer
      (hR.modify _ s (fun x => { x with msgRateLimiter := some limiter }) fun _ => rfl)
    exact hR.trans (hR.trans hlimiter (hreplay _ (hR.trans h hlimiter) userId))
      (hR.broadcastPresence _ _ _)
  have hbefore : R sv
      ((sv.enterEstablished codec d s userId).onSessionAuthenticated codec d s userId) :=
    hR.trans (hR.enterEstablished userId) (hR.onSessionAuthenticated _ userId)
  exact hR.trans hbefore (htraffic _ hbefore)

/-- The envelopes whose handlers relay, or use the tables. -/
def relayOrTableTypes : List MessageType :=
  [.authResponse, .chatEnvelope, .voiceSignal, .keyUpload, .keyRequest, .command, .fileUpload,
    .fileDownload]

theorem handleEnvelope (hR : Speaks R) {env : Envelope} (h : env.type ∉ relayOrTableTypes) :
    R sv (sv.handleEnvelope codec crypto d s x env) := by
  unfold Server.handleEnvelope
  cases htype : env.type with
  | authResponse | chatEnvelope | voiceSignal | keyUpload | keyRequest | command | fileUpload
  | fileDownload =>
    rw [htype] at h
    exact absurd (by decide) h
  | hello =>
    dsimp only
    split_ifs
    · split
      · exact hR.sendError_disconnect sv s _ _
      · exact hR.handleHello _
    · exact hR.refl sv
  | ping =>
    dsimp only
    split_ifs
    · exact hR.handlePing env
    · exact hR.refl sv
  | pong => exact hR.modify sv s _ fun _ => rfl
  | voiceRoomJoin =>
    dsimp only
    split_ifs
    · exact hR.handlePayload _ _ _ _ fun _ => hR.handleVoiceRoomJoin _
    · exact hR.refl sv
  | voiceRoomLeave =>
    dsimp only
    split_ifs
    · exact hR.handlePayload _ _ _ _ fun _ => hR.handleVoiceRoomLeave _
    · exact hR.refl sv
  | authChallenge | authOk | authFail | keyBundle | presence | voiceRoomState | commandResponse
  | nickChange | fileChunk | fileProgress | fileComplete | fileError | motd | error | other =>
    exact hR.refl sv

/-! ## Events without a frame -/

theorem doReadFrameHeader (hR : Speaks R) (sv : Server) (t : SessionId) :
    R sv (sv.doReadFrameHeader t) :=
  hR.modify sv t _ fun x => by split_ifs <;> rfl

theorem onTimer (hR : Speaks R) (wait : TimerWait) :
    R sv (sv.onTimer codec d s x wait) := by
  have hexpired : R sv (sv.modify s fun x => { x with expired := x.expired.erase wait }) :=
    hR.modify sv s _ fun _ => rfl
  unfold Server.onTimer
  dsimp only
  split
  · exact hexpired
  · split
    · exact hR.trans hexpired (hR.onSessionDisconnected _ s)
    · split_ifs
      · exact hR.trans hexpired (hR.onSessionDisconnected _ s)
      · refine hR.trans hexpired ?_
        refine hR.trans (hR.modify _ s (fun y =>
          { y with nextSeq := y.nextSeq + 1, pingSent := true, timer := some .timeout })
          fun _ => rfl) ?_
        exact hR.send _ s (show MessageType.Ordinary .ping by decide)

/-- The events that are neither a received frame, nor a new connection, nor the cleanup. -/
theorem perform (hR : Speaks R) {event : Event}
    (hframe : ∀ t data, event ≠ .payloadRead t (some data)) (haccept : ∀ ip, event ≠ .accept ip)
    (hcleanup : event ≠ .cleanup) : R sv (sv.perform codec crypto d event) := by
  cases event with
  | accept ip => exact absurd rfl (haccept ip)
  | cleanup => exact absurd rfl hcleanup
  | acceptError | setMaxConnections | setMsgRate | setMotd => exact hR.rest _ _ rfl rfl rfl
  | handshakeDone t ok =>
    have hdone : R sv (sv.modify t fun x => { x with handshaking := false }) :=
      hR.modify sv t _ fun _ => rfl
    cases ok with
    | true =>
      refine hR.trans hdone ?_
      exact hR.trans (hR.modify _ t (fun x => { x with state := .hello }) fun _ => rfl)
        (hR.doReadFrameHeader _ t)
    | false => exact hR.trans hdone (hR.onSessionDisconnected _ t)
  | headerRead t size =>
    have hdone : R sv (sv.modify t fun x => { x with reading := none }) :=
      hR.modify sv t _ fun _ => rfl
    cases size with
    | none => exact hR.trans hdone (hR.onSessionDisconnected _ t)
    | some size =>
      unfold Server.perform onHeader
      dsimp only
      split_ifs
      · exact hR.trans (hR.trans hdone (hR.sendError _ t _ _)) (hR.onSessionDisconnected _ t)
      · exact hR.trans hdone (hR.onSessionDisconnected _ t)
      · exact hR.trans hdone (hR.modify _ t _ fun _ => rfl)
  | payloadRead t data =>
    cases data with
    | some data => exact absurd rfl (hframe t data)
    | none =>
      unfold Server.perform
      dsimp only
      split
      · exact hR.refl sv
      · exact hR.trans (hR.modify sv t (fun x => { x with reading := none }) fun _ => rfl)
          (hR.onSessionDisconnected _ t)
  | writeDone t ok =>
    have hdone : R sv (sv.modify t fun x => { x with writes := x.writes - 1 }) :=
      hR.modify sv t _ fun _ => rfl
    unfold Server.perform onWritten
    dsimp only
    split_ifs
    · exact hdone
    · exact hR.trans hdone (hR.onSessionDisconnected _ t)
  | disconnectRuns t => exact hR.modify sv t _ fun _ => rfl
  | timerExpires t => exact hR.modify sv t _ fun _ => rfl
  | timerFires t wait =>
    unfold Server.perform
    dsimp only
    split
    · exact hR.refl sv
    · exact hR.onTimer wait
  | adminDisconnect userId =>
    unfold Server.perform
    dsimp only
    split_ifs
    · exact hR.refl sv
    · split
      · exact hR.refl sv
      · exact hR.disconnect sv _
  | shutdown =>
    unfold Server.perform onShutdown
    dsimp only
    split_ifs
    · exact hR.refl sv
    · have hstop : R sv { sv with shuttingDown := true, accepting := false } :=
        hR.rest sv _ rfl rfl rfl
      have hall := hR.trans hstop
        (hR.foldl (fun sv t => hR.disconnect sv t) sv.usersBySession.keys _)
      exact hR.trans hall (hR.rest _ _ rfl rfl rfl)

end Speaks

namespace Tolerates

variable {codec : Codec} {crypto : Crypto} {R : Server → Server → Prop} {d : Draws} {sv : Server}
  {s : SessionId} {x : Session}

theorem onlyUsers (hR : Tolerates codec R) {db : Database}
    (h : Database.OnlyUsers sv.db db) : R sv { sv with db := db } :=
  hR.setDb sv db (storesNickChanges_of_eq h.offlineMessages) h.files h.fileChunks

/-! ## Messages -/

theorem handleKeyUpload (hR : Tolerates codec R) (ku : KeyUpload) :
    R sv (sv.handleKeyUpload d x ku) := by
  obtain ⟨db, honly, heq⟩ := onlyUsers_handleKeyUpload d sv x ku
  rw [heq]
  exact hR.onlyUsers honly

theorem handleKeyRequest (hR : Tolerates codec R) (kr : KeyRequest) :
    R sv (sv.handleKeyRequest codec d s kr) := by
  unfold Server.handleKeyRequest
  split
  · exact hR.sendError sv s _ _
  · exact hR.trans (hR.onlyUsers (UserStore.onlyUsers_consumeOpk kr.userId))
      (hR.sendEnvelope _ s (by decide) _)

theorem handleCommand (hR : Tolerates codec R) (cmd : IrcCommand) :
    R sv (sv.handleCommand codec crypto d s x cmd) := by
  obtain ⟨hnotices, htables⟩ :=
    @CommandHandler.reports_handleCommand (sv.services codec crypto d) sv.commands sv.db
      ⟨s, x.userId⟩ cmd
  unfold Server.handleCommand
  generalize sv.commands.handleCommand (sv.services codec crypto d) sv.db cmd ⟨s, x.userId⟩ =
    outcome at hnotices htables ⊢
  have hset : R sv { sv with commands := outcome.handler, db := outcome.db } :=
    hR.trans (hR.setDb sv outcome.db htables.stores htables.files.1 htables.files.2)
      (hR.rest _ _ rfl rfl rfl)
  refine hR.trans (hR.trans hset (hR.run (fun _ _ hmem => (hnotices _ hmem).ordinary) _)) ?_
  exact hR.send _ s (show MessageType.Ordinary .commandResponse by decide)

theorem handleAuthResponse (hR : Tolerates codec R)
    (hreplay : ∀ sv', R sv sv' → ∀ userId, R sv' (sv'.deliverOffline codec d s userId))
    (auth : AuthResponse) : R sv (sv.handleAuthResponse codec crypto d s x auth) := by
  unfold Server.handleAuthResponse
  split_ifs
  · exact hR.sendError_disconnect sv s _ _
  · exact hR.authFail sv s _ _
  · exact hR.sendError_disconnect sv s _ _
  · exact hR.sendError_disconnect sv s _ _
  · exact hR.authFail sv s _ _
  · have honly {db : Database} (h : (registerOrVerify crypto d sv.db auth).tables = some db) :
        Database.OnlyUsers sv.db db := onlyUsers_registerOrVerify h
    cases hverdict : registerOrVerify crypto d sv.db auth with
    | accept db =>
      have hset : R sv { sv with db := db } := hR.onlyUsers (honly (by rw [hverdict]; rfl))
      exact hR.trans hset
        (hR.establish (fun sv' hsv' => hreplay sv' (hR.trans hset hsv')) auth.userId)
    | fail code message => exact hR.authFail sv s _ _
    | insertFailed => exact hR.sendError_disconnect sv s _ _
    | threw db => exact hR.onlyUsers (honly (by rw [hverdict]; rfl))

/-- The envelopes whose handlers relay, replay or transfer files. -/
def relayOrFileTypes : List MessageType :=
  [.authResponse, .chatEnvelope, .voiceSignal, .fileUpload, .fileDownload]

theorem handleEnvelope (hR : Tolerates codec R) {env : Envelope} (h : env.type ∉ relayOrFileTypes) :
    R sv (sv.handleEnvelope codec crypto d s x env) := by
  by_cases hlisted : env.type ∈ Speaks.relayOrTableTypes
  · have htype : env.type = .keyUpload ∨ env.type = .keyRequest ∨ env.type = .command := by
      simp only [relayOrFileTypes, Speaks.relayOrTableTypes, List.mem_cons, List.not_mem_nil,
        or_false] at h hlisted
      tauto
    unfold Server.handleEnvelope
    rcases htype with htype | htype | htype
    · rw [htype]
      exact hR.ifAuthenticated _ fun _ => hR.handlePayload _ _ _ _ fun _ => hR.handleKeyUpload _
    · rw [htype]
      exact hR.ifAuthenticated _ fun _ => hR.handlePayload _ _ _ _ fun _ => hR.handleKeyRequest _
    · rw [htype]
      exact hR.ifAuthenticated _ fun _ => hR.handlePayload _ _ _ _ fun _ => hR.handleCommand _
  · exact hR.toSpeaks.handleEnvelope hlisted

end Tolerates

end Server

end Ircord

import IrcordServer.Commands.Replies
import IrcordServer.Net.FileMessages
import IrcordServer.Net.SeqNumbers
import IrcordServer.VoiceRooms

/-!
# How long the frames of the server are

`send` and `send_envelope` take an envelope of any size.  What bounds an answer is what it is made
of: user ids are short, a relayed envelope came in a frame, and everything else has to be short
enough on its own.
-/

open Container Protobuf

namespace Ircord

/-! ## Voice rooms -/

namespace VoiceRoomManager

/-- The names of the rooms fit into a message. -/
structure NamesFit (m : VoiceRoomManager) : Prop where
  rooms : ∀ c ∈ m.rooms, c.length ≤ maxContent
  userRoom : ∀ u c, m.userRoom.lookup u = some c → c.length ≤ maxContent

/-- The name of the room and the ids of those in it, each with a field header. -/
def roomLength (m : VoiceRoomManager) (channelId : Str) : ℕ :=
  channelId.length + ((m.participants channelId).map fun u => u.length + 4).sum

section NamesFit

variable {codec : Codec} {m : VoiceRoomManager} {findSession : Str → Option SessionId}
  {channelId userId : Str}

theorem namesFit_empty : NamesFit .empty where
  rooms c hc := absurd hc (AList.notMem_empty c)
  userRoom u c h := by cases h

theorem NamesFit.setRoom (h : NamesFit m) (hname : channelId.length ≤ maxContent)
    (room : UnorderedSet Str) : ∀ c ∈ m.setRoom channelId room, c.length ≤ maxContent := by
  intro c hc
  unfold VoiceRoomManager.setRoom at hc
  split_ifs at hc
  · exact h.rooms c (AList.mem_erase.1 hc).2
  · rcases UnorderedMap.mem_insert_iff.1 hc with rfl | hc
    · exact hname
    · exact h.rooms c hc

theorem NamesFit.erase (h : NamesFit m) (userId : Str) :
    ∀ u c, (m.userRoom.erase userId).lookup u = some c → c.length ≤ maxContent := by
  intro u c hc
  rw [UnorderedMap.lookup_erase_ite] at hc
  split_ifs at hc
  exact h.userRoom u c hc

/-- Nobody enters a room because a user leaves one. -/
theorem members_leaveOldRoom (channelId : Str) :
    (members (leaveOldRoom codec findSession m userId).1.rooms channelId).elems.Sublist
      (m.participants channelId) := by
  rw [participants_eq]
  cases hold : m.userRoom.lookup userId with
  | none =>
    rw [leaveOldRoom_of_none hold]
  | some old =>
    rw [leaveOldRoom_of_some hold, members_putGroup]
    split_ifs with e
    · rw [e]
      exact UnorderedSet.elems_erase_sublist _ _
    · exact List.Sublist.refl _

theorem length_error_join_le :
    (join codec findSession m channelId userId).1.length ≤ 64 := by
  unfold join
  dsimp only
  split_ifs
  · show (str "Voice room is full (max " ++ toStr maxPerRoom ++ str ")").length ≤ 64
    decide
  · exact Nat.zero_le 64

variable [compact : codec.Compact]

/-! ### The messages -/

theorem fits_sendTo {type : MessageType} {payload : Bytes} (htype : type.code ≠ 0)
    (hpayload : payload.length ≤ maxContent + 219) (userId : Str) :
    ∀ a ∈ sendTo findSession userId type payload, a.Fits codec := by
  intro a ha
  obtain ⟨session, -, rfl⟩ := List.mem_map.1 ha
  exact Envelope.fits_of_payload htype hpayload

theorem fits_sendToAll {type : MessageType} {payload : Bytes} (htype : type.code ≠ 0)
    (hpayload : payload.length ≤ maxContent + 219) (room : UnorderedSet Str) :
    ∀ a ∈ sendToAll findSession room type payload, a.Fits codec := by
  intro a ha
  obtain ⟨peer, -, ha⟩ := List.mem_flatMap.1 ha
  exact fits_sendTo htype hpayload peer a ha

/-- A user enters or leaves a room: both names are in the message. -/
theorem length_voiceRoomJoin (hname : channelId.length ≤ maxContent)
    (huser : userId.length ≤ 64) :
    (codec.voiceRoomJoin.serialize ⟨channelId, userId⟩).length ≤ maxContent + 219 := by
  have hmax := maxContent_eq
  have hlength := compact.voiceRoomJoin_le channelId userId (by omega) (by omega)
  omega

theorem length_voiceRoomLeave (hname : channelId.length ≤ maxContent)
    (huser : userId.length ≤ 64) :
    (codec.voiceRoomLeave.serialize ⟨channelId, userId⟩).length ≤ maxContent + 219 := by
  have hmax := maxContent_eq
  have hlength := compact.voiceRoomLeave_le channelId userId (by omega) (by omega)
  omega

/-! ### The operations -/

theorem namesFit_leaveOldRoom (h : NamesFit m) (huser : userId.length ≤ 64) :
    NamesFit (leaveOldRoom codec findSession m userId).1 ∧
      ∀ a ∈ (leaveOldRoom codec findSession m userId).2, a.Fits codec := by
  unfold leaveOldRoom
  split
  · exact ⟨h, List.forall_mem_nil _⟩
  · rename_i old hold
    have hname := h.userRoom userId old hold
    exact ⟨⟨h.setRoom hname _, h.erase userId⟩,
      fits_sendToAll (by decide) (length_voiceRoomLeave hname huser) _⟩

theorem namesFit_leave (h : NamesFit m) (huser : userId.length ≤ 64) :
    NamesFit (leave codec findSession m channelId userId).1 ∧
      ∀ a ∈ (leave codec findSession m channelId userId).2, a.Fits codec := by
  unfold leave
  split
  · exact ⟨h, List.forall_mem_nil _⟩
  · rename_i room hroom
    split_ifs
    · have hname := h.rooms channelId (UnorderedMap.mem_iff_lookup.2 ⟨room, hroom⟩)
      exact ⟨⟨h.setRoom hname _, h.erase userId⟩,
        fits_sendToAll (by decide) (length_voiceRoomLeave hname huser) _⟩
    · exact ⟨h, List.forall_mem_nil _⟩

theorem namesFit_onDisconnect (h : NamesFit m) (huser : userId.length ≤ 64) :
    NamesFit (onDisconnect codec findSession m userId).1 ∧
      ∀ a ∈ (onDisconnect codec findSession m userId).2, a.Fits codec := by
  unfold onDisconnect
  split
  · exact ⟨h, List.forall_mem_nil _⟩
  · rename_i channelId hold
    dsimp only
    split
    · exact ⟨⟨h.rooms, h.erase userId⟩, List.forall_mem_nil _⟩
    · have hname := h.userRoom userId channelId hold
      exact ⟨⟨h.setRoom hname _, h.erase userId⟩,
        fits_sendToAll (by decide) (length_voiceRoomLeave hname huser) _⟩

/-- The new member adds little to the list of those that were there. -/
theorem length_participants_insert {room : UnorderedSet Str} {participants : List Str}
    (hroom : room.elems.Sublist participants) (huser : userId.length ≤ 64) :
    ((room.insert userId).elems.map fun u => u.length + 4).sum ≤
      (participants.map fun u => u.length + 4).sum + 68 := by
  have hle : (room.elems.map fun u => u.length + 4).sum ≤
      (participants.map fun u => u.length + 4).sum :=
    (hroom.map _).sum_le_sum fun _ _ => Nat.zero_le _
  rw [UnorderedSet.elems_insert]
  split_ifs
  · omega
  · rw [List.map_cons, List.sum_cons]
    omega

theorem namesFit_join (h : NamesFit m) (huser : userId.length ≤ 64)
    (hlength : m.roomLength channelId ≤ maxContent) :
    NamesFit (join codec findSession m channelId userId).2.1 ∧
      ∀ a ∈ (join codec findSession m channelId userId).2.2, a.Fits codec := by
  have hname : channelId.length ≤ maxContent := (Nat.le_add_right _ _).trans hlength
  obtain ⟨hleft, hactions⟩ := @namesFit_leaveOldRoom codec m findSession userId _ h huser
  have hroom := @members_leaveOldRoom codec m findSession userId channelId
  unfold join
  generalize leaveOldRoom codec findSession m userId = left at hleft hactions hroom ⊢
  dsimp only
  change (((left.1.rooms.lookup channelId).getD ∅).elems.Sublist _) at hroom
  generalize (left.1.rooms.lookup channelId).getD ∅ = room at hroom ⊢
  have hinsert (rooms : UnorderedMap Str (UnorderedSet Str)) (room : UnorderedSet Str)
      (hrooms : ∀ c ∈ rooms, c.length ≤ maxContent) :
      ∀ c ∈ rooms.insert channelId room, c.length ≤ maxContent := by
    intro c hc
    rcases UnorderedMap.mem_insert_iff.1 hc with rfl | hc
    · exact hname
    · exact hrooms c hc
  have hfound := hinsert left.1.rooms room hleft.rooms
  split_ifs
  · exact ⟨⟨hfound, hleft.userRoom⟩, hactions⟩
  · have hstate : (codec.voiceRoomState.serialize
        ⟨channelId, (room.insert userId).elems⟩).length ≤ maxContent + 219 := by
      have hmax := maxContent_eq
      have hsum := length_participants_insert hroom huser
      unfold roomLength at hlength
      have hserialize := compact.voiceRoomState_le channelId (room.insert userId).elems
        (by omega) fun u hu => by
          have hle : u.length + 4 ≤ ((room.insert userId).elems.map fun u => u.length + 4).sum :=
            List.single_le_sum (fun _ _ => Nat.zero_le _) _ (List.mem_map_of_mem hu)
          omega
      omega
    refine ⟨⟨hinsert _ _ hfound, fun u c hc => ?_⟩, List.forall_mem_append.2
      ⟨List.forall_mem_append.2 ⟨hactions,
        fits_sendToAll (by decide) (length_voiceRoomJoin hname huser) _⟩,
        fits_sendTo (by decide) hstate _⟩⟩
    rw [UnorderedMap.lookup_insert_ite] at hc
    split_ifs at hc
    · cases hc
      exact hname
    · exact hleft.userRoom u c hc

end NamesFit

end VoiceRoomManager

namespace Server

/-! ## The invariant -/

/-- The user id of a session is short, and so is the frame that it reads. -/
structure SessionFits (x : Session) : Prop where
  userId : x.userId.length ≤ 64
  reading : ∀ size, x.reading = some (.payload size) → size ≤ Session.maxMessageSize

/-- Every frame so far was short enough, and so is what the server keeps to make frames of. -/
structure Sized (codec : Codec) (sv : Server) : Prop where
  frames : ∀ p ∈ sv.written, p.2.Fits codec
  replays : sv.db.ReplaysFit codec
  sessions : ∀ (s : SessionId) (x : Session), sv.sessions[s]? = some x → SessionFits x
  users : ∀ u s, sv.sessionsByUser.lookup u = some s → u.length ≤ 64
  owners : ∀ s u, sv.usersBySession.lookup s = some u → u.length ≤ 64
  rooms : sv.voice.NamesFit

section Sized

variable {codec : Codec} {crypto : Crypto} {d : Draws} {sv sv' : Server} {s : SessionId}
  {x : Session} {userId : Str}

theorem sized_start (config : Config) {db : Database} (hdb : db.ReplaysFit codec) :
    Sized codec (start config db) where
  frames := List.forall_mem_nil _
  replays := hdb
  sessions s x found := by cases found
  users u s h := by cases h
  owners s u h := by cases h
  rooms := VoiceRoomManager.namesFit_empty

theorem sessionFits_new : SessionFits .new where
  userId := Nat.zero_le 64
  reading size h := by cases h

theorem Sized.setDb (h : Sized codec sv) {db : Database} (hdb : db.ReplaysFit codec) :
    Sized codec { sv with db := db } :=
  ⟨h.frames, hdb, h.sessions, h.users, h.owners, h.rooms⟩

/-- New tables with the same offline messages. -/
theorem Sized.setTables (h : Sized codec sv) {db : Database}
    (hsame : db.offlineMessages = sv.db.offlineMessages) : Sized codec { sv with db := db } :=
  h.setDb (h.replays.of_eq hsame)

theorem Sized.modify (h : Sized codec sv) (s : SessionId) (f : Session → Session)
    (hf : ∀ x, SessionFits x → SessionFits (f x)) : Sized codec (sv.modify s f) := by
  refine ⟨h.frames, h.replays, fun t x found => ?_, h.users, h.owners, h.rooms⟩
  rw [sessions_modify] at found
  split_ifs at found
  · obtain ⟨y, hy, rfl⟩ := Option.map_eq_some_iff.1 found
    exact hf y (h.sessions t y hy)
  · exact h.sessions t x found

/-- A change of other fields of the record. -/
theorem Sized.touch (h : Sized codec sv) (s : SessionId) (f : Session → Session)
    (huser : ∀ x, (f x).userId = x.userId) (hreading : ∀ x, (f x).reading = x.reading) :
    Sized codec (sv.modify s f) :=
  h.modify s f fun x hx => ⟨by rw [huser]; exact hx.userId, by rw [hreading]; exact hx.reading⟩

theorem Sized.send (h : Sized codec sv) (s : SessionId) {env : Envelope} (henv : env.Fits codec) :
    Sized codec (sv.send s env) := by
  have hkept := h.touch s (fun x => { x with writes := x.writes + 1 }) (fun _ => rfl) fun _ => rfl
  exact ⟨List.forall_mem_append.2 ⟨h.frames, List.forall_mem_singleton.2 henv⟩, h.replays,
    hkept.sessions, h.users, h.owners, h.rooms⟩

theorem Sized.disconnect (h : Sized codec sv) (s : SessionId) : Sized codec (sv.disconnect s) :=
  h.touch s _ (fun _ => rfl) fun _ => rfl

theorem Sized.foldl {β : Type} {f : Server → β → Server} {bs : List β} (h : Sized codec sv)
    (hf : ∀ b ∈ bs, ∀ sv, Sized codec sv → Sized codec (f sv b)) : Sized codec (bs.foldl f sv) :=
  List.foldlRecOn _ _ h fun sv hsv b hb => hf b hb sv hsv

theorem Sized.run (h : Sized codec sv) {actions : List Action}
    (hactions : ∀ a ∈ actions, a.Fits codec) : Sized codec (sv.run actions) := by
  refine h.foldl fun a ha sv hsv => ?_
  cases a with
  | send t env => exact hsv.send t (hactions _ ha)
  | disconnect t reason => exact hsv.disconnect t

theorem Sized.broadcast (h : Sized codec sv) {env : Envelope} (henv : env.Fits codec)
    (exclude : Option SessionId) : Sized codec (sv.broadcast env exclude) :=
  h.foldl fun _ _ _ hsv => hsv.send _ henv

theorem Sized.allowMessage (h : Sized codec sv) {allowed : Bool}
    (hallow : sv.allowMessage d s x = (allowed, sv')) : Sized codec sv' := by
  unfold Server.allowMessage at hallow
  split at hallow
  · cases hallow
    exact h
  · cases hallow
    exact h.touch s _ (fun _ => rfl) fun _ => rfl

/-- The rooms after an operation, and its messages. -/
theorem Sized.setVoice (h : Sized codec sv) {voice : VoiceRoomManager} {actions : List Action}
    (hvoice : voice.NamesFit) (hactions : ∀ a ∈ actions, a.Fits codec) :
    Sized codec ({ sv with voice := voice }.run actions) := by
  have hset : Sized codec { sv with voice := voice } :=
    ⟨h.frames, h.replays, h.sessions, h.users, h.owners, hvoice⟩
  exact hset.run hactions

/-- What was stored for the user can be sent to it. -/
theorem Sized.deliverOffline (h : Sized codec sv) (userId : Str) :
    Sized codec (sv.deliverOffline codec d s userId) := by
  unfold Server.deliverOffline
  have hfetch : Sized codec { sv with
      db := (OfflineStore.fetchAndDelete sv.db userId d.nowUnix).2 } :=
    h.setDb (h.replays.of_rows fun r hr => (Sql.Table.mem_retain.1 hr).1)
  refine hfetch.foldl fun env henv sv' hsv' => hsv'.send s ?_
  obtain ⟨payload, hpayload, hparse⟩ := List.mem_filterMap.1 henv
  obtain ⟨r, hr, rfl⟩ := List.mem_map.1 hpayload
  exact h.replays r (List.mem_filter.1 hr).1 env hparse

theorem Sized.handleKeyUpload (h : Sized codec sv) (ku : KeyUpload) :
    Sized codec (sv.handleKeyUpload d x ku) := by
  obtain ⟨db, honly, heq⟩ := onlyUsers_handleKeyUpload d sv x ku
  rw [heq]
  exact h.setTables honly.offlineMessages

theorem Sized.removeSession (h : Sized codec sv) (s : SessionId) (userId : Str) :
    Sized codec (sv.removeSession s userId) := by
  refine ⟨h.frames, h.replays, h.sessions, fun u t hu => ?_, fun t u hu => ?_, h.rooms⟩
  · change (sv.sessionsByUser.erase userId).lookup u = some t at hu
    rw [UnorderedMap.lookup_erase_ite] at hu
    split_ifs at hu
    exact h.users u t hu
  · change (sv.usersBySession.erase s).lookup t = some u at hu
    rw [UnorderedMap.lookup_erase_ite] at hu
    split_ifs at hu
    exact h.owners t u hu

theorem Sized.register (h : Sized codec sv) (s : SessionId) (huser : userId.length ≤ 64) :
    Sized codec (sv.register s userId) := by
  have hadd {sv : Server} (h : Sized codec sv) : Sized codec (sv.addSession s userId) := by
    refine ⟨h.frames, h.replays, h.sessions, fun u t hu => ?_, fun t u hu => ?_, h.rooms⟩
    · change (sv.sessionsByUser.insert userId s).lookup u = some t at hu
      rw [UnorderedMap.lookup_insert_ite] at hu
      split_ifs at hu with e
      · exact e ▸ huser
      · exact h.users u t hu
    · change (sv.usersBySession.insert s userId).lookup t = some u at hu
      rw [UnorderedMap.lookup_insert_ite] at hu
      split_ifs at hu
      · cases hu
        exact huser
      · exact h.owners t u hu
  unfold Server.register
  split
  · exact hadd h
  · rename_i old _
    exact hadd ((h.disconnect old).removeSession old userId)

/-! ## Messages of the server -/

variable [compact : codec.Compact]

theorem Sized.sendEnvelope (h : Sized codec sv) (s : SessionId) {type : MessageType}
    {payload : Bytes} (htype : type.code ≠ 0)
    (hpayload : payload.length ≤ maxContent + 219) :
    Sized codec (sv.sendEnvelope d s type payload) := by
  unfold Server.sendEnvelope
  split
  · exact h
  · exact (h.touch s (fun x => { x with nextSeq := x.nextSeq + 1 }) (fun _ => rfl)
      fun _ => rfl).send s (Envelope.fits_of_payload htype hpayload)

/-- The texts of errors are short. -/
theorem Sized.sendError (h : Sized codec sv) (s : SessionId) (code : UInt32) {message : String}
    (hmessage : (str message).length ≤ 128) :
    Sized codec (sv.sendError codec d s code message) := by
  have hmax := maxContent_eq
  have hlength := compact.errorMessage_le code (str message) (by omega)
  exact h.sendEnvelope s (by decide) (hlength.trans (by omega))

theorem Sized.sendError_disconnect (h : Sized codec sv) (s : SessionId) (code : UInt32)
    {message : String} (hmessage : (str message).length ≤ 128) :
    Sized codec ((sv.sendError codec d s code message).disconnect s) :=
  (h.sendError s code hmessage).disconnect s

theorem Sized.authFail (h : Sized codec sv) (s : SessionId) (code : UInt32) {message : Str}
    (hmessage : message.length ≤ 1024) : Sized codec (sv.authFail codec d s code message) := by
  have hmax := maxContent_eq
  have hlength := compact.errorMessage_le code message (by omega)
  exact (h.sendEnvelope s (by decide) (hlength.trans (by omega))).disconnect s

theorem fits_presenceEnvelope (huser : userId.length ≤ 64) (status : PresenceStatus) :
    (presenceEnvelope codec d ⟨userId, status⟩).Fits codec := by
  have hmax := maxContent_eq
  have hlength := compact.presenceUpdate_le userId status (by omega)
  exact Envelope.fits_of_payload (show MessageType.code .presence ≠ 0 by decide)
    (hlength.trans (by omega))

theorem Sized.broadcastPresence (h : Sized codec sv) (huser : userId.length ≤ 64)
    (status : PresenceStatus) (exclude : Option SessionId) :
    Sized codec (sv.broadcastPresence codec d ⟨userId, status⟩ exclude) :=
  h.broadcast (fits_presenceEnvelope huser status) exclude

/-! ## Authentication -/

theorem length_isValidUserId {id : Str} (h : isValidUserId id = true) : id.length ≤ 64 := by
  unfold isValidUserId at h
  simp only [Bool.and_eq_true, decide_eq_true_eq] at h
  exact h.1.2

theorem length_formatNickSuggestions_le (desired : Str) :
    (formatNickSuggestions (generateNickSuggestions desired 3)).length ≤
      3 * desired.length + 32 := by
  have hgenerate : generateNickSuggestions desired 3 =
      [desired ++ str "1", desired ++ str "2", desired ++ str "3"] := rfl
  rw [hgenerate]
  simp [formatNickSuggestions, str]
  omega

theorem Sized.handleHello (h : Sized codec sv) (hello : Hello) :
    Sized codec (sv.handleHello codec d s hello) := by
  unfold Server.handleHello
  split_ifs
  · exact h.sendError_disconnect s _ (by decide)
  · have hnonce := h.touch s (fun x => { x with authNonce := d.nonce }) (fun _ => rfl) fun _ => rfl
    have hlength := compact.authChallenge_le d.nonce.1 (d.nonce.2.trans_lt (by decide))
    rw [d.nonce.2] at hlength
    exact (hnonce.sendEnvelope s (by decide) (hlength.trans (by decide))).touch s _
      (fun _ => rfl) fun _ => rfl

/-- The message of the day, each line with a field header. -/
def motdLength (sv : Server) : ℕ := ((getLines sv.motd).map fun l => l.length + 4).sum

theorem Sized.sendMotd (h : Sized codec sv) (hmotd : sv.motdLength ≤ maxContent) :
    Sized codec (sv.sendMotd codec d s) := by
  unfold Server.sendMotd
  split_ifs
  · exact h
  · have hmax := maxContent_eq
    unfold motdLength at hmotd
    have hlength := compact.motdMessage_le (getLines sv.motd) fun l hl => by
      have hle : l.length + 4 ≤ ((getLines sv.motd).map fun l => l.length + 4).sum :=
        List.single_le_sum (fun _ _ => Nat.zero_le _) _ (List.mem_map_of_mem hl)
      omega
    exact h.sendEnvelope s (by decide) (hlength.trans (by omega))

theorem Sized.onSessionAuthenticated (h : Sized codec sv) (s : SessionId)
    (huser : userId.length ≤ 64) : Sized codec (sv.onSessionAuthenticated codec d s userId) := by
  have hregister := h.register s huser
  refine hregister.foldl fun u hu sv' hsv' => hsv'.send s (fits_presenceEnvelope ?_ .online)
  obtain ⟨e, he, rfl⟩ := List.mem_map.1 hu
  exact hregister.users e.1 e.2
    (UnorderedMap.lookup_eq_some_of_mem_entries (List.mem_filter.1 he).1)

theorem motd_sendEnvelope (sv : Server) (type : MessageType) (payload : Bytes) :
    (sv.sendEnvelope d s type payload).motd = sv.motd := by
  unfold Server.sendEnvelope
  split <;> rfl

theorem Sized.enterEstablished (h : Sized codec sv) (huser : userId.length ≤ 64)
    (hmotd : sv.motdLength ≤ maxContent) :
    Sized codec (sv.enterEstablished codec d s userId) := by
  have hnamed : Sized codec (sv.modify s fun x => { x with userId := userId }) :=
    h.modify s _ fun _ hx => ⟨huser, hx.reading⟩
  have hok := @Sized.sendEnvelope codec d _ _ hnamed s .authOk [] (by decide) (by decide)
  refine (hok.touch s (fun x => { x with state := .established }) (fun _ => rfl)
    fun _ => rfl).sendMotd ?_
  unfold motdLength at hmotd ⊢
  change ((getLines (Server.sendEnvelope d _ s .authOk []).motd).map _).sum ≤ _
  rw [motd_sendEnvelope]
  exact hmotd

theorem Sized.startTraffic (h : Sized codec sv) (huser : userId.length ≤ 64) :
    Sized codec (sv.startTraffic codec d s userId) := by
  have htimer := h.touch s Session.startPingTimer (fun _ => rfl) fun _ => rfl
  have hlimiter := htimer.touch s
    (fun x => { x with msgRateLimiter := some (.new sv.msgRatePerSec (seconds 1) d.now) })
    (fun _ => rfl) fun _ => rfl
  exact (hlimiter.deliverOffline userId).broadcastPresence huser .online (some s)

theorem Sized.establish (h : Sized codec sv) (huser : userId.length ≤ 64)
    (hmotd : sv.motdLength ≤ maxContent) : Sized codec (establish codec d sv s userId) :=
  ((h.enterEstablished huser hmotd).onSessionAuthenticated s huser).startTraffic huser

theorem length_of_fail {db : Database} {auth : AuthResponse} {code : UInt32} {message : String}
    (hfail : registerOrVerify crypto d db auth = .fail code message) :
    (str message).length ≤ 128 := by
  have hrecover (hfail : recoverIdentityKey crypto d db auth = .fail code message) :
      (str message).length ≤ 128 := by
    unfold recoverIdentityKey at hfail
    split_ifs at hfail
    · dsimp only at hfail
      split at hfail
      · cases hfail
      · split at hfail <;> cases hfail
    · cases hfail
      decide
    · cases hfail
      decide
  unfold registerOrVerify registerUser at hfail
  split at hfail
  · split at hfail
    · cases hfail
    · split at hfail
      · cases hfail
      · split_ifs at hfail
  · split_ifs at hfail
    exact hrecover hfail

theorem Sized.onVerdict (h : Sized codec sv) (huser : userId.length ≤ 64) {auth : AuthResponse}
    (hmotd : (∃ db, registerOrVerify crypto d sv.db auth = .accept db) →
      sv.motdLength ≤ maxContent) :
    Sized codec (sv.onVerdict codec d s userId (registerOrVerify crypto d sv.db auth)) := by
  have hsame (db : Database) (htables : (registerOrVerify crypto d sv.db auth).tables = some db) :
      Sized codec { sv with db := db } :=
    h.setTables (onlyUsers_registerOrVerify htables).offlineMessages
  cases hverdict : registerOrVerify crypto d sv.db auth with
  | accept db =>
    rw [hverdict] at hsame
    exact (hsame db rfl).establish huser (hmotd ⟨db, hverdict⟩)
  | fail code message =>
    exact h.authFail s code ((length_of_fail hverdict).trans (by decide))
  | insertFailed => exact h.sendError_disconnect s _ (by decide)
  | threw db =>
    rw [hverdict] at hsame
    exact hsame db rfl

theorem Sized.handleAuthResponse (h : Sized codec sv) {auth : AuthResponse}
    (hmotd : PassesAuth crypto d sv x auth → sv.motdLength ≤ maxContent) :
    Sized codec (sv.handleAuthResponse codec crypto d s x auth) := by
  by_cases hpresents : Presents crypto sv x.authNonce auth
  · rw [handleAuthResponse_presented hpresents]
    exact h.onVerdict (length_isValidUserId hpresents.userId)
      fun haccept => hmotd ⟨hpresents, haccept⟩
  · unfold Server.handleAuthResponse
    split
    · exact h.sendError_disconnect s _ (by decide)
    rename_i huser
    split
    · have hlength := length_isValidUserId (by simpa using huser)
      have hsuggestions := length_formatNickSuggestions_le auth.userId
      refine h.authFail s _ ?_
      simp [str]
      omega
    rename_i havailable
    split
    · exact h.sendError_disconnect s _ (by decide)
    rename_i hkey
    split
    · exact h.sendError_disconnect s _ (by decide)
    rename_i hsignature
    split
    · exact h.authFail s _ (by decide)
    rename_i hverified
    refine absurd ⟨?_, ?_, not_ne_iff.1 hkey, not_ne_iff.1 hsignature, ?_⟩ hpresents
    · simpa using huser
    · simpa using havailable
    · simpa using hverified

/-! ## Messages -/

theorem Sized.handlePing (h : Sized codec sv) {env : Envelope}
    (hpayload : env.payload.length ≤ maxContent) : Sized codec (sv.handlePing d s x env) := by
  exact (h.touch s (fun x => { x with nextSeq := x.nextSeq + 1 }) (fun _ => rfl)
    fun _ => rfl).send s (Envelope.fits_of_payload (show MessageType.code .pong ≠ 0 by decide)
      (hpayload.trans (Nat.le_add_right _ 219)))

/-- A chat message is sent on as it was received, now or later. -/
theorem Sized.handleChat (h : Sized codec sv) {chat : ChatEnvelope} {raw : Envelope}
    (hraw : raw.Fits codec)
    (hparse : codec.envelope.parse (codec.envelope.serialize raw) = some raw) :
    Sized codec (sv.handleChat codec d s x chat raw) := by
  unfold Server.handleChat
  split_ifs
  · exact h.sendError_disconnect s _ (by decide)
  · exact h.sendError s _ (by decide)
  · exact h.broadcast hraw (some s)
  · split
    · exact h.send _ hraw
    · have hsave := h.replays.save hraw hparse chat.recipientId d.nowUnix
      split
      · rename_i db hsaved
        rw [hsaved] at hsave
        exact h.setDb hsave
      · rename_i db hsaved
        rw [hsaved] at hsave
        exact (h.setDb hsave).sendError s _ (by decide)

theorem Sized.handleVoiceSignal (h : Sized codec sv) {vs : VoiceSignal} {raw : Envelope}
    (hraw : raw.Fits codec) : Sized codec (sv.handleVoiceSignal codec d s x vs raw) := by
  unfold Server.handleVoiceSignal
  split
  · exact h.sendError_disconnect s _ (by decide)
  split
  · exact h.sendError s _ (by decide)
  split
  · exact h.send _ hraw
  · split
    · exact h.sendError s _ (by decide)
    · exact h

theorem Sized.handleVoiceRoomJoin (h : Sized codec sv) (huser : x.userId.length ≤ 64)
    {join : VoiceRoomJoin} (hlength : sv.voice.roomLength join.channelId ≤ maxContent) :
    Sized codec (sv.handleVoiceRoomJoin codec d s x join) := by
  obtain ⟨hvoice, hactions⟩ :=
    @VoiceRoomManager.namesFit_join codec sv.voice sv.findSession join.channelId x.userId _
      h.rooms huser
      hlength
  have herror := @VoiceRoomManager.length_error_join_le codec sv.voice sv.findSession
    join.channelId x.userId
  unfold Server.handleVoiceRoomJoin
  generalize sv.voice.join codec sv.findSession join.channelId x.userId = joined at *
  dsimp only
  split_ifs
  · have hmax := maxContent_eq
    have hmessage := compact.errorMessage_le 4077 joined.1 (by omega)
    exact (h.setVoice hvoice hactions).sendEnvelope s (by decide) (hmessage.trans (by omega))
  · exact h.setVoice hvoice hactions

theorem Sized.handleVoiceRoomLeave (h : Sized codec sv) (huser : x.userId.length ≤ 64)
    (leave : VoiceRoomLeave) : Sized codec (sv.handleVoiceRoomLeave codec x leave) := by
  obtain ⟨hvoice, hactions⟩ :=
    @VoiceRoomManager.namesFit_leave codec sv.voice sv.findSession leave.channelId x.userId _
      h.rooms huser
  exact h.setVoice hvoice hactions

/-- The keys of the user leave room in a frame. -/
def KeysFit (db : Database) (userId : Str) : Prop := ∀ target ∈ UserStore.findById db userId,
  let spk := UserStore.getSignedPrekey db userId
  target.identityPub.length + ((spk.map (·.spkPub)).getD []).length +
    ((spk.map (·.spkSig)).getD []).length + (UserStore.consumeOpk db userId).1.length +
      userId.length ≤ maxContent

instance (db : Database) (userId : Str) : Decidable (KeysFit db userId) :=
  inferInstanceAs (Decidable (∀ target ∈ _, _))

theorem Sized.handleKeyRequest (h : Sized codec sv) {kr : KeyRequest}
    (hkeys : KeysFit sv.db kr.userId) : Sized codec (sv.handleKeyRequest codec d s kr) := by
  unfold Server.handleKeyRequest
  split
  · exact h.sendError s _ (by decide)
  · rename_i target htarget
    have hlength := hkeys target htarget
    have hmax := maxContent_eq
    have hbundle := compact.keyBundle_le
      { identityPub := target.identityPub
        signedPrekey := ((UserStore.getSignedPrekey sv.db kr.userId).map (·.spkPub)).getD []
        spkSignature := ((UserStore.getSignedPrekey sv.db kr.userId).map (·.spkSig)).getD []
        oneTimePrekey := (UserStore.consumeOpk sv.db kr.userId).1
        recipientFor := kr.userId }
    dsimp only at hlength hbundle ⊢
    exact (h.setTables (UserStore.onlyUsers_consumeOpk kr.userId).offlineMessages).sendEnvelope s
      (by decide) ((hbundle (by omega)).trans (by omega))

theorem Sized.handleCommand (h : Sized codec sv) (huser : x.userId.length ≤ 64) {cmd : IrcCommand}
    (hfits : sv.commands.RepliesFit x.userId cmd) :
    Sized codec (sv.handleCommand codec crypto d s x cmd) := by
  obtain ⟨hactions, hresponse, hstored⟩ := @CommandHandler.fitting_handleCommand
    (sv.services codec crypto d) sv.commands sv.db ⟨s, x.userId⟩ cmd compact huser hfits
  unfold Server.handleCommand
  generalize sv.commands.handleCommand (sv.services codec crypto d) sv.db cmd ⟨s, x.userId⟩ =
    outcome at hactions hresponse hstored ⊢
  have hset : Sized codec { sv with commands := outcome.handler, db := outcome.db } :=
    ⟨h.frames, hstored h.replays, h.sessions, h.users, h.owners, h.rooms⟩
  exact (hset.run hactions).send s (CommandHandler.fits_responseEnvelope hresponse)

/-! ## File transfer -/

theorem Sized.sendFileError (h : Sized codec sv) (s : SessionId) (code : UInt32)
    {fileId message : Str} (hlength : fileId.length + message.length ≤ maxContent + 96) :
    Sized codec (sv.sendFileError codec d s fileId code message) := by
  have hmax := maxContent_eq
  have hserialize := compact.fileError_le fileId code message (by omega) (by omega)
  exact h.sendEnvelope s (by decide) (hserialize.trans (by omega))

theorem Sized.sendFileProgress (h : Sized codec sv) (s : SessionId) {fileId : Str}
    (hfile : fileId.length ≤ maxContent) (transferred total : ℕ) {status : String}
    (hstatus : (str status).length ≤ 96) :
    Sized codec (sv.sendFileProgress codec d s fileId transferred total status) := by
  have hmax := maxContent_eq
  have hlength := compact.fileProgress_le fileId transferred total (transferred / total * 100)
    (str status) (by omega) (by omega)
  exact h.sendEnvelope s (by decide) (hlength.trans (by omega))

theorem Sized.handleFileRequest (h : Sized codec sv) {req : FileUploadRequest}
    (hfile : req.fileId.length ≤ maxContent) :
    Sized codec (sv.handleFileRequest codec d s x req) := by
  unfold Server.handleFileRequest
  split
  · exact h.sendFileError s _ (Nat.add_le_add hfile (by decide))
  split
  · exact h.sendFileError s _ (Nat.add_le_add hfile (by decide))
  dsimp only
  split
  all_goals
    rename_i db hcreate
    have hsame := @FileStore.offlineMessages_createFile sv.db
      { fileId := req.fileId
        filename := req.filename
        fileSize := req.fileSize.toNat
        mimeType := req.mimeType
        senderId := x.userId
        recipientId := req.recipientId
        channelId := req.channelId } d.nowUnix
    rw [hcreate] at hsame
  · exact (h.setTables hsame).sendFileError s _ (Nat.add_le_add hfile (by decide))
  · have hstatus : (str "uploading").length ≤ 96 := by decide
    refine Sized.sendFileProgress ?_ s hfile _ _ hstatus
    exact (h.setTables hsame).touch s _ (fun _ => rfl) fun _ => rfl

theorem Sized.finishUpload (h : Sized codec sv) {fileId : Str} (hfile : fileId.length ≤ maxContent)
    (upload : FileUploadState) : Sized codec (sv.finishUpload codec d s fileId upload) := by
  have herase {sv : Server} (h : Sized codec sv) : Sized codec (sv.modify s fun x =>
      { x with activeUploads := x.activeUploads.erase fileId }) :=
    h.touch s _ (fun _ => rfl) fun _ => rfl
  unfold Server.finishUpload
  dsimp only
  split
  · -- the scanner is not available, and so finds no threat
    rename_i hthreat
    exact absurd hthreat Bool.false_ne_true
  · have hmax := maxContent_eq
    have hlength := compact.fileComplete_le fileId upload.bytesReceived (by omega)
    exact herase ((h.setTables (FileStore.offlineMessages_markComplete _ _)).sendEnvelope s
      (by decide) (hlength.trans (by omega)))

theorem Sized.handleFileUpload (h : Sized codec sv) {chunk : FileUploadChunk}
    (hfile : chunk.fileId.length ≤ maxContent) :
    Sized codec (sv.handleFileUpload codec d s x chunk) := by
  unfold Server.handleFileUpload
  split
  · rename_i sv' hallow
    exact (h.allowMessage hallow).sendFileError s _ (Nat.add_le_add hfile (by decide))
  rename_i sv' hallow
  have h := h.allowMessage hallow
  split
  · exact h.sendFileError s _ (Nat.add_le_add hfile (by decide))
  rename_i upload _
  split
  · exact h.sendFileError s _ (Nat.add_le_add hfile (by decide))
  have hsame :=
    @FileStore.offlineMessages_storeChunk sv'.db chunk.fileId chunk.chunkIndex chunk.data
  split
  all_goals
    rename_i db hstore
    rw [hstore] at hsame
  · exact (h.setTables hsame).sendFileError s _ (Nat.add_le_add hfile (by decide))
  · have hstatus : (str "uploading").length ≤ 96 := by decide
    have hprogress (upload : FileUploadState) := @Sized.sendFileProgress codec d _ _
      ((h.setTables hsame).touch s (fun x =>
        { x with activeUploads := x.activeUploads.insert chunk.fileId upload }) (fun _ => rfl)
        fun _ => rfl) s chunk.fileId hfile upload.bytesReceived upload.fileSize "uploading" hstatus
    dsimp only
    split
    · exact (hprogress _).finishUpload hfile _
    · exact hprogress _

/-- What a download sends of the chunk: its data, or its number if it is missing. -/
def chunkLength (db : Database) (fileId : Str) (i : ℕ) : ℕ :=
  match FileStore.getChunk db fileId (UInt32.ofNat i) with
  | none => (toStr i).length
  | some data => data.length

/-- The chunks that the client asks for leave room in a frame, with the id of their file. -/
def ChunksFit (db : Database) (req : FileDownloadRequest) : Prop :=
  req.fileId.length ≤ maxContent ∧ ∀ metadata ∈ FileStore.getFile db req.fileId,
    ∀ i < (metadata.fileSize + downloadChunkSize - 1) / downloadChunkSize,
      req.chunkIndex.toNat ≤ i → req.fileId.length + chunkLength db req.fileId i ≤ maxContent

instance (db : Database) (req : FileDownloadRequest) : Decidable (ChunksFit db req) :=
  inferInstanceAs (Decidable (_ ∧ ∀ metadata ∈ _, ∀ i < _, _))

theorem Sized.sendChunks {fileId : Str} {fileSize totalChunks : ℕ} {db : Database} {n i : ℕ}
    (hchunks : ∀ j < i + n, i ≤ j → fileId.length + chunkLength db fileId j ≤ maxContent)
    (h : Sized codec sv) (hdb : sv.db = db) :
    Sized codec (Server.sendChunks codec d s fileId fileSize totalChunks n i sv) := by
  induction n generalizing i sv with
  | zero => exact h
  | succ n ih =>
    have hlength := hchunks i (by omega) (Nat.le_refl i)
    have hfile : fileId.length ≤ maxContent := (Nat.le_add_right _ _).trans hlength
    unfold chunkLength at hlength
    unfold Server.sendChunks
    rw [hdb]
    split
    · rename_i hnone
      rw [hnone] at hlength
      dsimp only at hlength
      refine h.sendFileError s _ ?_
      simp [str]
      omega
    · rename_i data hdata
      rw [hdata] at hlength
      dsimp only at hlength
      have hmax := maxContent_eq
      have hserialize := compact.fileChunk_le fileId (UInt32.ofNat i) data (i + 1 == totalChunks)
        (by omega) (by omega)
      have hstatus : (str "downloading").length ≤ 96 := by decide
      have hchunk := @Sized.sendEnvelope codec d sv _ h s .fileChunk _ (by decide)
        (hserialize.trans (by omega))
      refine ih (fun j hj hij => hchunks j (by omega) (by omega))
        (hchunk.sendFileProgress s hfile _ _ hstatus) ?_
      exact ((db_sendEnvelope _ _).trans (db_sendEnvelope _ _)).trans hdb

theorem Sized.handleFileDownload (h : Sized codec sv) {req : FileDownloadRequest}
    (hchunks : ChunksFit sv.db req) : Sized codec (sv.handleFileDownload codec d s req) := by
  unfold Server.handleFileDownload
  split
  · exact h.sendFileError s _ (Nat.add_le_add hchunks.1 (by decide))
  · rename_i metadata hmetadata
    refine Sized.sendChunks (fun j hj hij => hchunks.2 metadata hmetadata j ?_ hij) h rfl
    omega

/-! ## Envelopes -/

theorem Sized.handlePayload (h : Sized codec sv) {α : Type} {env : Envelope} {wire : Wire α}
    (code : UInt32) {message : String} (hmessage : (str message).length ≤ 128)
    {handle : α → Server} (hhandle : ∀ m ∈ env.parsePayload wire, Sized codec (handle m)) :
    Sized codec (sv.handlePayload codec d s env wire code message handle) := by
  unfold Server.handlePayload
  split
  · exact h.sendError s _ hmessage
  · rename_i m hm
    exact hhandle m hm

theorem Sized.ifAuthenticated (h : Sized codec sv) (code : UInt32) {handled : Server}
    (hhandled : x.state = .established → Sized codec handled) :
    Sized codec (sv.ifAuthenticated codec d s x code handled) := by
  unfold Server.ifAuthenticated
  split_ifs with hstate
  · exact hhandled hstate
  · exact h.sendError s _ (by decide)

theorem Sized.ifAllowed (h : Sized codec sv) {handled : Server → Server}
    (hhandled : ∀ sv, Sized codec sv → Sized codec (handled sv)) :
    Sized codec (sv.ifAllowed codec d s x handled) := by
  unfold Server.ifAllowed
  split
  · rename_i sv' hallow
    exact (h.allowMessage hallow).sendError s _ (by decide)
  · rename_i sv' hallow
    exact hhandled sv' (h.allowMessage hallow)

end Sized

/-- The file id, and the chunks that are asked for, leave room in a frame. -/
def FileMessageFits (db : Database) : FileMessage → Prop
  | .request req => req.fileId.length ≤ maxContent
  | .chunk chunk => chunk.fileId.length ≤ maxContent
  | .download req => ChunksFit db req

instance (db : Database) (m : FileMessage) : Decidable (FileMessageFits db m) := by
  cases m <;> unfold FileMessageFits <;> infer_instance

/-- What the answers to the envelope of an established session are made of leaves room in a
frame. -/
def MessageFits (codec : Codec) (sv : Server) (x : Session) (env : Envelope) : Prop :=
  match env.type with
  | .ping => env.payload.length ≤ maxContent
  | .voiceRoomJoin => ∀ join ∈ env.parsePayload codec.voiceRoomJoin,
    sv.voice.roomLength join.channelId ≤ maxContent
  | .keyRequest => ∀ kr ∈ env.parsePayload codec.keyRequest, KeysFit sv.db kr.userId
  | .command => ∀ cmd ∈ env.parsePayload codec.ircCommand,
    sv.commands.RepliesFit x.userId cmd
  | .fileUpload | .fileDownload => ∀ m ∈ env.fileMessage codec, FileMessageFits sv.db m
  | _ => True

instance (codec : Codec) (sv : Server) (x : Session) (env : Envelope) :
    Decidable (sv.MessageFits codec x env) := by
  unfold MessageFits
  cases env.type <;> infer_instance

/-- A client that logs in gets the message of the day. -/
def LoginFits (codec : Codec) (crypto : Crypto) (d : Draws) (sv : Server) (x : Session)
    (env : Envelope) : Prop :=
  env.type = .authResponse → ∀ auth ∈ env.parsePayload codec.authResponse,
    PassesAuth crypto d sv x auth → sv.motdLength ≤ maxContent

instance (verdict : AuthVerdict) : Decidable (∃ db, verdict = .accept db) :=
  match verdict with
  | .accept db => isTrue ⟨db, rfl⟩
  | .fail _ _ | .insertFailed | .threw _ => isFalse fun ⟨_, h⟩ => by cases h

instance (crypto : Crypto) (d : Draws) (sv : Server) (x : Session) (auth : AuthResponse) :
    Decidable (PassesAuth crypto d sv x auth) :=
  inferInstanceAs (Decidable (_ ∧ ∃ _, _))

instance (codec : Codec) (crypto : Crypto) (d : Draws) (sv : Server) (x : Session)
    (env : Envelope) : Decidable (LoginFits codec crypto d sv x env) :=
  inferInstanceAs (Decidable (_ → ∀ auth ∈ _, _ → _))

section Sized

variable {codec : Codec} [compact : codec.Compact] {crypto : Crypto} {d : Draws} {sv : Server}
  {s : SessionId} {x : Session}

theorem Sized.handleFileUploadPayload (h : Sized codec sv) {env : Envelope}
    (htype : env.type = .fileUpload)
    (hfits : ∀ m ∈ env.fileMessage codec, FileMessageFits sv.db m) :
    Sized codec (sv.handleFileUploadPayload codec d s x env) := by
  unfold Envelope.fileMessage at hfits
  rw [htype] at hfits
  unfold Server.handleFileUploadPayload
  dsimp only at hfits ⊢
  split
  · exact h.sendError s _ (by decide)
  rename_i hempty
  rw [if_neg hempty] at hfits
  split
  · rename_i chunk hchunk
    rw [hchunk] at hfits
    exact h.handleFileUpload (hfits _ rfl)
  · rename_i hnone
    rw [hnone] at hfits
    split
    · rename_i req hreq
      rw [hreq] at hfits
      exact h.handleFileRequest (hfits _ rfl)
    · exact h.sendError s _ (by decide)

/-- Whatever a frame holds, the answers fit if what they are made of does. -/
theorem Sized.handleEnvelope (h : Sized codec sv) (huser : x.userId.length ≤ 64) {env : Envelope}
    {data : Bytes} (hparse : codec.envelope.parse data = some env)
    (hdata : data.length ≤ Session.maxMessageSize)
    (hmessage : x.state = .established → sv.MessageFits codec x env)
    (hlogin : x.state = .authPending → LoginFits codec crypto d sv x env) :
    Sized codec (sv.handleEnvelope codec crypto d s x env) := by
  unfold LoginFits at hlogin
  unfold MessageFits at hmessage
  unfold Server.handleEnvelope
  cases htype : env.type
  all_goals
    rw [htype] at hmessage
    dsimp only at hmessage ⊢
  case hello =>
    split_ifs
    · split
      · exact h.sendError_disconnect s _ (by decide)
      · exact h.handleHello _
    · exact h
  case authResponse =>
    split_ifs with hstate
    · split
      · exact h.sendError_disconnect s _ (by decide)
      · rename_i auth hauth
        exact h.handleAuthResponse (hlogin hstate htype auth hauth)
    · exact h
  case ping =>
    split_ifs with hstate
    · exact h.handlePing (hmessage hstate)
    · exact h
  case pong => exact h.touch s _ (fun _ => rfl) fun _ => rfl
  case chatEnvelope =>
    have hraw : env.Fits codec := Envelope.fits_of_parse hparse (by rw [htype]; decide) hdata
    exact h.ifAuthenticated _ fun _ => h.ifAllowed fun sv hsv =>
      hsv.handlePayload _ (by decide) fun chat _ =>
        hsv.handleChat hraw (compact.reparse data env hparse)
  case voiceSignal =>
    have hraw : env.Fits codec := Envelope.fits_of_parse hparse (by rw [htype]; decide) hdata
    exact h.ifAuthenticated _ fun _ => h.ifAllowed fun sv hsv =>
      hsv.handlePayload _ (by decide) fun vs _ => hsv.handleVoiceSignal hraw
  case voiceRoomJoin =>
    split_ifs with hstate
    · exact h.handlePayload _ (by decide) fun join hjoin =>
        h.handleVoiceRoomJoin huser (hmessage hstate join hjoin)
    · exact h
  case voiceRoomLeave =>
    split_ifs
    · exact h.handlePayload _ (by decide) fun leave _ => h.handleVoiceRoomLeave huser leave
    · exact h
  case keyUpload =>
    exact h.ifAuthenticated _ fun _ => h.handlePayload _ (by decide) fun ku _ =>
      h.handleKeyUpload ku
  case keyRequest =>
    exact h.ifAuthenticated _ fun hstate => h.handlePayload _ (by decide) fun kr hkr =>
      h.handleKeyRequest (hmessage hstate kr hkr)
  case command =>
    exact h.ifAuthenticated _ fun hstate => h.handlePayload _ (by decide) fun cmd hcmd =>
      h.handleCommand huser (hmessage hstate cmd hcmd)
  case fileUpload =>
    exact h.ifAuthenticated _ fun hstate => h.handleFileUploadPayload htype (hmessage hstate)
  case fileDownload =>
    refine h.ifAuthenticated _ fun hstate => h.handlePayload _ (by decide) fun req hreq => ?_
    have hfits := hmessage hstate (.download req)
    unfold Envelope.fileMessage at hfits
    rw [htype] at hfits
    exact h.handleFileDownload (hfits (Option.map_eq_some_iff.2 ⟨req, hreq, rfl⟩))
  all_goals exact h

end Sized

end Server

end Ircord

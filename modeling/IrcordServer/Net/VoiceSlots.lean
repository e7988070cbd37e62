import IrcordServer.Net.Apart
import IrcordServer.Net.Teardown
import IrcordServer.VoiceRooms

/-!
# Who holds a place in a voice room

A user is taken out of the rooms when `on_session_disconnected` finds the session registered.  A
session joins a room by its own state, which a ping timeout does not change.
-/

open Container Run

namespace Ircord

namespace Server

section Definitions

variable (codec : Codec) (sv : Server) (i : Input)

/-- Whoever is in a voice room has a registered session. -/
structure MembersRegistered : Prop where
  users : ∀ u ∈ sv.voice.userRoom, u ∈ sv.sessionsByUser
  slots : ∀ channelId, ∀ u ∈ sv.voice.participants channelId, u ∈ sv.sessionsByUser

/-- The step passes the message to `handle_voice_room_join` of the session `s`. -/
structure ReceivesJoin (s : SessionId) (x : Session) (env : Envelope) (join : VoiceRoomJoin) :
    Prop where
  delivered : delivered codec s sv i = some env
  found : sv.sessions[s]? = some x
  state : x.state = .established
  type : env.type = .voiceRoomJoin
  parses : env.parsePayload codec.voiceRoomJoin = some join

/-- A user who joins a room with a free place is registered, and the shutdown finds all rooms
empty. -/
structure AdmitsRegistered : Prop where
  join : ∀ s x env join, ReceivesJoin codec sv i s x env join →
    ((members sv.voice.rooms join.channelId).erase x.userId).size < VoiceRoomManager.maxPerRoom →
    x.userId ∈ sv.sessionsByUser
  shutdown : i.event = .shutdown → sv.shuttingDown = false → ∀ u, u ∉ sv.voice.userRoom

/-- What a step does to the voice rooms and to the registered users. -/
inductive VoiceStep (sv' : Server) : Prop
  | same (voice : sv'.voice = sv.voice) (kept : ∀ u ∈ sv.sessionsByUser, u ∈ sv'.sessionsByUser)
  | join (s : SessionId) (x : Session) (env : Envelope) (join : VoiceRoomJoin)
      (received : ReceivesJoin codec sv i s x env join)
      (voice : sv'.voice = (sv.voice.join codec sv.findSession join.channelId x.userId).2.1)
      (sessionsByUser : sv'.sessionsByUser = sv.sessionsByUser)
  | leave (channelId userId : Str)
      (voice : sv'.voice = (sv.voice.leave codec sv.findSession channelId userId).1)
      (sessionsByUser : sv'.sessionsByUser = sv.sessionsByUser)
  | report (s : SessionId) (findSession : Str → Option SessionId) (userId : Str)
      (user : sv.usersBySession.lookup s = some userId)
      (voice : sv'.voice = if userId.isEmpty then sv.voice
        else (sv.voice.onDisconnect codec findSession userId).1)
      (sessionsByUser : sv'.sessionsByUser = sv.sessionsByUser.erase userId)
  | shutdown (event : i.event = .shutdown) (first : sv.shuttingDown = false)
      (voice : sv'.voice = sv.voice) (sessionsByUser : sv'.sessionsByUser = ∅)

end Definitions

section Proofs

variable {codec : Codec} {crypto : Crypto} {d : Draws} {sv sv₁ : Server} {i : Input} {s : SessionId}
  {x : Session}

/-! ## The rooms after a step -/

theorem voice_handleVoiceRoomJoin (join : VoiceRoomJoin) :
    (sv.handleVoiceRoomJoin codec d s x join).voice =
      (sv.voice.join codec sv.findSession join.channelId x.userId).2.1 := by
  unfold handleVoiceRoomJoin
  dsimp only
  split_ifs
  · exact (apart_voice.sendEnvelope _ s _ _).trans (apart_voice.run _ _)
  · exact apart_voice.run _ _

theorem voice_handleVoiceRoomLeave (leave : VoiceRoomLeave) :
    (sv.handleVoiceRoomLeave codec x leave).voice =
      (sv.voice.leave codec sv.findSession leave.channelId x.userId).1 :=
  apart_voice.run _ _

theorem voice_leaveVoiceRooms (userId : Str) :
    (sv.leaveVoiceRooms codec userId).voice =
      (sv.voice.onDisconnect codec sv.findSession userId).1 :=
  apart_voice.run _ _

theorem voice_unregister (sv : Server) (s : SessionId) : (sv.unregister s).voice = sv.voice := by
  obtain ⟨_, _, e⟩ := unregister_eq sv s
  rw [e]

/-- `on_session_disconnected` for a session that is not registered. -/
theorem voice_of_unknown (h : sv.usersBySession.lookup s = none) :
    (sv.onSessionDisconnected codec d s).voice = sv.voice := by
  unfold onSessionDisconnected
  rw [h]
  exact voice_unregister sv s

theorem voice_of_known {userId : Str} (h : sv.usersBySession.lookup s = some userId) :
    ∃ findSession, (sv.onSessionDisconnected codec d s).voice =
      if userId.isEmpty then sv.voice
      else (sv.voice.onDisconnect codec findSession userId).1 := by
  unfold onSessionDisconnected
  rw [h]
  dsimp only
  split_ifs
  · exact ⟨fun _ => none, voice_unregister sv s⟩
  · have hbroadcast : ((sv.unregister s).broadcastPresence codec d ⟨userId, .offline⟩ none).voice =
        sv.voice := (apart_voice.broadcast _ _ none).trans (voice_unregister sv s)
    refine ⟨((sv.unregister s).broadcastPresence codec d ⟨userId, .offline⟩ none).findSession, ?_⟩
    rw [voice_leaveVoiceRooms, hbroadcast]

/-- What the call of `on_session_disconnected` in a step finds. -/
theorem Apart.teardown {α : Type} {f : Server → α} (h : Apart f)
    (call : sv.teardown codec i = some (s, sv₁)) : f sv₁ = f sv := by
  unfold Server.teardown at call
  split_ifs at call
  unfold teardownCall at call
  split at call
  · cases call
    exact h.modify sv _ _
  · cases call
    exact h.modify sv _ _
  · dsimp only at call
    split_ifs at call
    · cases call
      exact (h.sendError _ _ _ _).trans (h.modify sv _ _)
    · cases call
      exact h.modify sv _ _
  · cases call
    exact h.modify sv _ _
  · cases call
    exact h.modify sv _ _
  · split at call
    · cases call
    · split_ifs at call
      cases call
      exact h.modify sv _ _
  · cases call

theorem voice_register (sv : Server) (s : SessionId) (userId : Str) :
    (sv.register s userId).voice = sv.voice := by
  unfold register
  split <;> rfl

theorem step_of_receivesJoin {env : Envelope} {join : VoiceRoomJoin}
    (h : ReceivesJoin codec sv i s x env join) :
    (sv.step codec crypto i).voice =
        (sv.voice.join codec sv.findSession join.channelId x.userId).2.1 ∧
      (sv.step codec crypto i).sessionsByUser = sv.sessionsByUser := by
  obtain ⟨x', found, hstep⟩ := @step_of_delivered codec crypto sv s i env h.delivered
  cases found.symm.trans h.found
  have hhandle (sv : Server) : sv.handleEnvelope codec crypto i.draws s x env =
      sv.handleVoiceRoomJoin codec i.draws s x join := by
    unfold handleEnvelope handlePayload
    rw [h.type]
    dsimp only
    rw [if_pos h.state, h.parses]
  rw [hstep, hhandle]
  constructor
  · exact (apart_voice.doReadFrameHeader _ s).trans (voice_handleVoiceRoomJoin join)
  · exact (apart_sessionsByUser.doReadFrameHeader _ s).trans
      (@quiet_handleVoiceRoomJoin False codec i.draws _ s x join).sessionsByUser

/-- An envelope that comes to the voice rooms, or leaves them alone. -/
theorem voice_of_delivered (crypto : Crypto) {env : Envelope}
    (hdelivered : delivered codec s sv i = some env) :
    (∃ x join, ReceivesJoin codec sv i s x env join) ∨
    (∃ channelId userId,
      (sv.step codec crypto i).voice = (sv.voice.leave codec sv.findSession channelId userId).1 ∧
        (sv.step codec crypto i).sessionsByUser = sv.sessionsByUser) ∨
    (sv.step codec crypto i).voice = sv.voice := by
  obtain ⟨x, found, hstep⟩ := @step_of_delivered codec crypto sv s i env hdelivered
  have hsame {sv₁ : Server} (h : sv₁.voice = sv.voice) :
      (sv₁.doReadFrameHeader s).voice = sv.voice := (apart_voice.doReadFrameHeader _ s).trans h
  by_cases hjoin : env.type = .voiceRoomJoin
  · cases hparse : env.parsePayload codec.voiceRoomJoin with
    | some join =>
      by_cases hstate : x.state = .established
      · exact Or.inl ⟨x, join, hdelivered, found, hstate, hjoin, hparse⟩
      · refine Or.inr (Or.inr ?_)
        rw [hstep]
        refine hsame ?_
        unfold handleEnvelope
        rw [hjoin]
        dsimp only
        rw [if_neg hstate]
        rfl
    | none =>
      refine Or.inr (Or.inr ?_)
      rw [hstep]
      refine hsame ?_
      unfold handleEnvelope handlePayload
      rw [hjoin, hparse]
      dsimp only
      split_ifs
      · exact apart_voice.sendError _ s _ _
      · rfl
  · by_cases hleave : env.type = .voiceRoomLeave
    · rw [hstep]
      unfold handleEnvelope handlePayload
      rw [hleave]
      dsimp only
      split_ifs with hstate
      · cases env.parsePayload codec.voiceRoomLeave with
        | none => exact Or.inr (Or.inr (hsame (apart_voice.sendError _ s _ _)))
        | some leave =>
          refine Or.inr (Or.inl ⟨leave.channelId, x.userId, ?_, ?_⟩)
          · exact (apart_voice.doReadFrameHeader _ s).trans (voice_handleVoiceRoomLeave leave)
          · exact (apart_sessionsByUser.doReadFrameHeader _ s).trans
              (@quiet_handleVoiceRoomLeave False codec _ s x leave).sessionsByUser
      · exact Or.inr (Or.inr (hsame rfl))
    · rw [hstep]
      exact Or.inr (Or.inr (hsame (apart_voice.handleEnvelope
        (fun sv userId => voice_register sv s userId) hjoin hleave)))

/-- Any other step. -/
theorem voice_of_other (crypto : Crypto) (hcall : sv.teardown codec i = none)
    (hframe : ∀ s, delivered codec s sv i = none) : (sv.step codec crypto i).voice = sv.voice := by
  unfold step
  split_ifs with henabled
  · have hcall' := hcall
    unfold teardown at hcall'
    rw [if_pos henabled] at hcall'
    cases hevent : i.event with
    | accept ip =>
      unfold perform onAccept
      dsimp only
      split_ifs <;> rfl
    | acceptError | disconnectRuns | timerExpires | setMaxConnections | setMsgRate | setMotd
    | cleanup => rfl
    | handshakeDone t ok =>
      rw [hevent] at hcall'
      cases ok with
      | true => exact apart_voice.doReadFrameHeader _ t
      | false => cases hcall'
    | headerRead t size =>
      rw [hevent] at hcall'
      cases size with
      | none => cases hcall'
      | some size =>
        unfold teardownCall at hcall'
        unfold perform onHeader
        dsimp only at hcall' ⊢
        split_ifs at hcall' ⊢
        rfl
    | payloadRead t data =>
      rw [hevent] at hcall'
      cases data with
      | none => cases hcall'
      | some data =>
        have hparse := hframe t
        rw [delivered_of_enabled hevent (hevent ▸ henabled)] at hparse
        unfold perform
        dsimp only
        split
        · rfl
        · unfold onPayload onFrameReceived
          dsimp only
          rw [hparse]
          exact (apart_voice.doReadFrameHeader _ t).trans (apart_voice.sendError _ t _ _)
    | writeDone t ok =>
      rw [hevent] at hcall'
      cases ok with
      | true => rfl
      | false => cases hcall'
    | timerFires t wait =>
      rw [hevent] at hcall'
      unfold teardownCall at hcall'
      unfold perform
      dsimp only at hcall' ⊢
      cases found : sv.sessions[t]? with
      | none => rfl
      | some x =>
        rw [found] at hcall'
        dsimp only at hcall' ⊢
        split_ifs at hcall' with hpings
        unfold onTimer
        dsimp only
        split
        · rfl
        · rename_i hstate
          have hestablished := not_ne_iff.1 hstate
          cases wait with
          | timeout => exact absurd ⟨hestablished, Or.inl rfl⟩ hpings
          | interval =>
            dsimp only
            split_ifs with hping
            · exact absurd ⟨hestablished, Or.inr hping⟩ hpings
            · rfl
    | adminDisconnect userId =>
      unfold perform
      dsimp only
      split_ifs
      · rfl
      · split <;> rfl
    | shutdown =>
      unfold perform onShutdown
      split_ifs
      · rfl
      · exact Apart.foldl (fun sv t => apart_voice.disconnect sv t) _ _
  · rfl

theorem voiceStep (codec : Codec) (crypto : Crypto) (i : Input) (h : WellFormed sv) :
    VoiceStep codec sv i (sv.step codec crypto i) := by
  cases hcall : sv.teardown codec i with
  | some call =>
    obtain ⟨s, sv₁⟩ := call
    have hvoice : sv₁.voice = sv.voice := apart_voice.teardown hcall
    have husers : sv₁.usersBySession = sv.usersBySession := apart_usersBySession.teardown hcall
    have hnames : sv₁.sessionsByUser = sv.sessionsByUser := apart_sessionsByUser.teardown hcall
    have hquiet := @quiet_unregister_onSessionDisconnected codec i.draws sv₁ s
    rw [(@step_of_teardown codec crypto sv i s sv₁ hcall).1]
    cases huser : sv₁.usersBySession.lookup s with
    | none =>
      refine .same ((voice_of_unknown huser).trans hvoice) fun u hu => ?_
      rcases unregister_cases sv₁ s with ⟨-, e⟩ | ⟨userId, huser', -⟩
      · rw [hquiet.sessionsByUser, e]
        exact hnames ▸ hu
      · cases huser.symm.trans huser'
    | some userId =>
      obtain ⟨findSession, e⟩ := @voice_of_known codec i.draws sv₁ s userId huser
      refine .report s findSession userId (husers ▸ huser) (hvoice ▸ e) ?_
      rw [hquiet.sessionsByUser, sessionsByUser_unregister huser, hnames]
  | none =>
    by_cases hshutdown : i.event = .shutdown ∧ sv.shuttingDown = false
    · obtain ⟨hevent, hfirst⟩ := hshutdown
      refine .shutdown hevent hfirst (voice_of_other crypto hcall fun s => ?_) ?_
      · unfold delivered
        rw [hevent]
      · unfold step
        rw [hevent, if_pos (show sv.enabled .shutdown = true from rfl)]
        unfold perform onShutdown
        rw [hfirst]
        rfl
    · have hkept (u : Str) (hu : u ∈ sv.sessionsByUser) :
          u ∈ (sv.step codec crypto i).sessionsByUser := by
        obtain ⟨s, hs⟩ := UnorderedMap.mem_iff_lookup.1 hu
        rcases registered_step codec crypto i h ((h.registry u s).1 hs) with
          hreg | ⟨sv₁, hcall'⟩ | hfirst
        · exact UnorderedMap.mem_iff_lookup.2
            ⟨s, ((wellFormed_step codec crypto i h).registry u s).2 hreg⟩
        · cases hcall.symm.trans hcall'
        · exact absurd hfirst hshutdown
      by_cases hframe : ∃ s env, delivered codec s sv i = some env
      · obtain ⟨s, env, hdelivered⟩ := hframe
        rcases voice_of_delivered crypto hdelivered with
          ⟨x, join, received⟩ | ⟨channelId, userId, hvoice, hnames⟩ | hvoice
        · obtain ⟨hvoice, hnames⟩ :=
            @step_of_receivesJoin codec crypto sv i s x env join received
          exact .join s x env join received hvoice hnames
        · exact .leave channelId userId hvoice hnames
        · exact .same hvoice hkept
      · refine .same (voice_of_other crypto hcall fun s => ?_) hkept
        exact Option.eq_none_iff_forall_ne_some.2 fun env henv => hframe ⟨s, env, henv⟩

/-! ## Invariants -/

/-- The rooms are in order, and nobody is registered under the empty name. -/
structure Housed (sv : Server) : Prop where
  wellFormed : WellFormed sv
  listed : sv.voice.Listed
  named : ∀ s userId, sv.usersBySession.lookup s = some userId → userId ≠ []

theorem housed_start (config : Config) (db : Database) : Housed (start config db) where
  wellFormed := wellFormed_start config db
  listed := roster_empty VoiceRoomManager.maxPerRoom
  named _ _ h := by cases h

theorem named_step (codec : Codec) (crypto : Crypto) (i : Input)
    (h : ∀ s userId, sv.usersBySession.lookup s = some userId → userId ≠ []) :
    ∀ s userId, (sv.step codec crypto i).usersBySession.lookup s = some userId → userId ≠ [] := by
  intro t userId huser
  cases step_effect codec crypto sv i with
  | background quiet => exact h t userId (quiet.usersBySession ▸ huser)
  | session s x g found alive fresh step moves => exact h t userId (moves.usersBySession ▸ huser)
  | auth s x auth found size reads state received presents authenticates =>
    rw [authenticates.usersBySession, UnorderedMap.lookup_insert_ite] at huser
    split_ifs at huser
    · cases huser
      rintro hempty
      have hvalid := presents.userId
      rw [hempty] at hvalid
      cases hvalid
    · exact h t userId huser
  | teardown s x sv₁ g found call alive completes fresh moves quiet =>
    rw [quiet.usersBySession, lookup_unregister, moves.usersBySession] at huser
    split_ifs at huser
    exact h t userId huser
  | accept sessions sessionsByUser usersBySession => exact h t userId (usersBySession ▸ huser)
  | shutdown event first core untouched sessionsByUser usersBySession =>
    rw [usersBySession] at huser
    cases huser

theorem listed_of_voiceStep {sv' : Server} (h : sv.voice.Listed)
    (hstep : VoiceStep codec sv i sv') : sv'.voice.Listed := by
  cases hstep with
  | same voice => exact voice ▸ h
  | join s x env join received voice =>
    exact voice ▸ VoiceRoomManager.listed_join h
  | leave channelId userId voice => exact voice ▸ VoiceRoomManager.listed_leave h
  | report s findSession userId user voice =>
    rw [voice]
    split_ifs
    · exact h
    · exact VoiceRoomManager.listed_onDisconnect h
  | shutdown event first voice => exact voice ▸ h

theorem housed_step (codec : Codec) (crypto : Crypto) (i : Input) (h : Housed sv) :
    Housed (sv.step codec crypto i) where
  wellFormed := wellFormed_step codec crypto i h.wellFormed
  listed := listed_of_voiceStep h.listed (voiceStep codec crypto i h.wellFormed)
  named := named_step codec crypto i h.named

/-- The members of the rooms are the users with a room. -/
theorem membersRegistered_iff (h : sv.voice.Listed) :
    MembersRegistered sv ↔
      ∀ u c, sv.voice.userRoom.lookup u = some c → u ∈ sv.sessionsByUser := by
  constructor
  · intro hmembers u c hu
    exact hmembers.users u (UnorderedMap.mem_iff_lookup.2 ⟨c, hu⟩)
  · intro hmembers
    refine ⟨fun u hu => ?_, fun channelId u hu => ?_⟩
    · obtain ⟨c, hc⟩ := UnorderedMap.mem_iff_lookup.1 hu
      exact hmembers u c hc
    · rw [VoiceRoomManager.participants_eq] at hu
      exact hmembers u channelId ((h.mem_iff u channelId).1 hu)

theorem membersRegistered_step_iff (codec : Codec) (crypto : Crypto) (i : Input) (h : Housed sv)
    (hmembers : MembersRegistered sv) :
    MembersRegistered (sv.step codec crypto i) ↔ AdmitsRegistered codec sv i := by
  have hbefore := (membersRegistered_iff h.listed).1 hmembers
  have hstep := voiceStep codec crypto i h.wellFormed
  rw [membersRegistered_iff (housed_step codec crypto i h).listed]
  constructor
  · intro hafter
    refine ⟨fun s x env join received hroom => ?_, fun hevent hfirst u hu => ?_⟩
    · obtain ⟨hvoice, hnames⟩ := @step_of_receivesJoin codec crypto sv i s x env join received
      rw [← hnames]
      refine hafter x.userId join.channelId ?_
      rw [hvoice, VoiceRoomManager.lookup_join h.listed, if_pos rfl, if_pos hroom]
    · obtain ⟨c, hc⟩ := UnorderedMap.mem_iff_lookup.1 hu
      have hgone : u ∈ (sv.step codec crypto i).sessionsByUser := by
        refine hafter u c ?_
        rw [voice_of_other crypto]
        · exact hc
        · unfold teardown
          rw [hevent]
          rfl
        · intro s
          unfold delivered
          rw [hevent]
      unfold step at hgone
      rw [hevent, if_pos (show sv.enabled .shutdown = true from rfl)] at hgone
      unfold perform onShutdown at hgone
      rw [hfirst] at hgone
      exact AList.notMem_empty u hgone
  · intro hadmits u c hu
    cases hstep with
    | same voice kept => exact kept u (hbefore u c (voice ▸ hu))
    | join s x env join received voice sessionsByUser =>
      rw [sessionsByUser]
      rw [voice, VoiceRoomManager.lookup_join h.listed] at hu
      split_ifs at hu with huser hroom
      · rw [huser]
        exact hadmits.join s x env join received hroom
      · exact hbefore u c hu
    | leave channelId userId voice sessionsByUser =>
      rw [voice] at hu
      rw [sessionsByUser]
      exact hbefore u c (VoiceRoomManager.lookup_of_leave h.listed hu)
    | report s findSession userId user voice sessionsByUser =>
      have hne : ¬ userId.isEmpty = true := fun hempty =>
        h.named s userId user (List.isEmpty_iff.1 hempty)
      rw [voice, if_neg hne, VoiceRoomManager.lookup_onDisconnect h.listed] at hu
      split_ifs at hu with huser
      rw [sessionsByUser, AList.mem_erase]
      exact ⟨huser, hbefore u c hu⟩
    | shutdown event first voice sessionsByUser =>
      exact absurd (UnorderedMap.mem_iff_lookup.2 ⟨c, voice ▸ hu⟩) (hadmits.shutdown event first u)

/-- Whoever is in a voice room is registered throughout a run exactly if every user who gets into a
room is registered then, and the shutdown finds nobody in any. -/
theorem members_registered_iff (codec : Codec) (crypto : Crypto) (config : Config) (db : Database)
    (is : List Input) :
    AllStates (step codec crypto) MembersRegistered (start config db) is ↔
      AllSteps (step codec crypto) (AdmitsRegistered codec) (start config db) is := by
  have hstart : MembersRegistered (start config db) :=
    ⟨fun u hu => absurd hu (AList.notMem_empty u), fun _ u hu => absurd hu List.not_mem_nil⟩
  exact allStates_iff_of_invariant (housed_start config db)
    (fun _ i h => housed_step codec crypto i h) hstart
    fun _ i h hmembers => membersRegistered_step_iff codec crypto i h hmembers

/-! ## A join after a ping timeout -/

/-- `alice` enters a voice room after its ping timeout. -/
def voiceAfterTimeoutRun : List Input :=
  pingTimeoutRun ++ (frameEvents 0 .voiceRoomJoin
    (Codec.proto3.voiceRoomJoin.serialize ⟨str "lobby", str "alice"⟩)).map Event.atZero

/-- `alice` has a place in the room, and no session is registered. -/
theorem not_membersRegistered_voiceAfterTimeoutRun :
    ¬ AllStates (step .proto3 (loginCrypto (str "alice") aliceSignature)) MembersRegistered
      (start ⟨10, 10, 10, []⟩ .empty) voiceAfterTimeoutRun := by
  intro hall
  have hmember : str "alice" ∈ (final (step .proto3 (loginCrypto (str "alice") aliceSignature))
      (start ⟨10, 10, 10, []⟩ .empty) voiceAfterTimeoutRun).voice.userRoom := by decide +kernel
  exact absurd (hall.final.users _ hmember) (by decide +kernel)

end Proofs

end Server

end Ircord

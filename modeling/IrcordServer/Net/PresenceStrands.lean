import IrcordServer.Net.Delivery
import IrcordServer.Net.Registry

/-!
# Presence messages that overlap

`on_session_authenticated` and `on_session_disconnected` change the registry under its lock and send
presence messages after it was released, one after the other, and so does `broadcast` with the
sessions it has collected.  In between, the handlers on other strands do the same.
-/

open Container Run

namespace Ircord

/-- Where a handler stands that has presence messages to send. -/
inductive Stage
  /-- `send_presence_snapshot`, with the users to go. -/
  | snapshot (userId : Str) (rest : List Str)
  /-- `on_session_authenticated` has returned. -/
  | entered (userId : Str)
  /-- `broadcast_presence`, before the lock is taken. -/
  | announcing (update : PresenceUpdate)
  /-- The same, with the sessions to go. -/
  | sending (update : PresenceUpdate) (rest : List SessionId)
  /-- `on_session_disconnected`, before the voice rooms. -/
  | leaving (userId : Str)
  deriving DecidableEq

/-- The server with the handlers under way, and the presence messages sent so far.  A message counts
as received by the session that it is sent to, also by one that is `Dead` and still registered. -/
structure Presences where
  sv : Server
  stages : UnorderedMap SessionId Stage
  told : List (SessionId × PresenceUpdate)

inductive PresenceAct
  /-- `handle_auth_response` from `// --- Auth success ---` to the end of the critical section. -/
  | authenticate (s : SessionId) (userId : Str)
  /-- `on_session_disconnected` up to the end of its critical section. -/
  | disconnected (s : SessionId)
  /-- The handler of the session goes on. -/
  | next (s : SessionId)
  | disconnect (s : SessionId)
  /-- The function posted by `disconnect`. -/
  | disconnectRuns (s : SessionId)

structure PresenceMove where
  draws : Draws
  act : PresenceAct

namespace Server

/-- From `start_ping_timer` to the offline messages. -/
def beginTraffic (codec : Codec) (d : Draws) (sv : Server) (s : SessionId) (userId : Str) :
    Server :=
  let sv := sv.modify s Session.startPingTimer
  let limiter := RateLimiter.new sv.msgRatePerSec (seconds 1) d.now
  let sv := sv.modify s fun x => { x with msgRateLimiter := some limiter }
  sv.deliverOffline codec d s userId

end Server

/-- The status that the registry gives a user. -/
def Server.standing (sv : Server) (u : Str) : PresenceStatus :=
  if u ∈ sv.sessionsByUser then .online else .offline

/-- The next message of the handler of `s`. -/
def Stage.message (s : SessionId) : Stage → Option (SessionId × PresenceUpdate)
  | .snapshot _ (u :: _) => some (s, ⟨u, .online⟩)
  | .sending update (t :: _) => some (t, update)
  | _ => none

/-- The handler of `s` is still going to send the message to `t`, if `t` is registered by then. -/
def Stage.Tells (s t : SessionId) (update : PresenceUpdate) : Stage → Prop
  | .snapshot userId rest =>
    update.status = .online ∧ if t = s then update.userId ∈ rest else update.userId = userId
  | .entered userId => t ≠ s ∧ update = ⟨userId, .online⟩
  | .announcing update' => update = update' ∧ (update.status = .online → t ≠ s)
  | .sending update' rest => update = update' ∧ t ∈ rest
  | .leaving _ => False

instance (s t : SessionId) (update : PresenceUpdate) (stage : Stage) :
    Decidable (stage.Tells s t update) := by
  cases stage <;> unfold Stage.Tells <;> infer_instance

/-- The handler of `s` may still write to `t`, whether `t` is registered by then or not. -/
def Stage.Reaches (s t : SessionId) : Stage → Prop
  | .snapshot _ _ => t = s
  | .sending _ rest => t ∈ rest
  | _ => False

namespace Presences

variable (codec : Codec) (d : Draws) (st : Presences) (s t : SessionId)

/-- Nobody is registered, and no handler is under way. -/
def start (sv : Server) : Presences where
  sv := { sv with sessionsByUser := ∅, usersBySession := ∅ }
  stages := ∅
  told := []

/-- No handler of the session is under way. -/
def Idle : Prop := st.stages.lookup s = none

instance : Decidable (st.Idle s) := inferInstanceAs (Decidable (_ = _))

/-- The handler of `s` gets to the stage, or ends. -/
def moveOn (stage : Option Stage) : Presences :=
  { st with
    stages := match stage with
      | none => st.stages.erase s
      | some stage => st.stages.insert s stage }

def tell (update : PresenceUpdate) : Presences :=
  { st with
    sv := st.sv.send t (Server.presenceEnvelope codec d update)
    told := st.told ++ [(t, update)] }

/-- The session may be authenticated for the user. -/
def MayEnter (userId : Str) : Prop :=
  st.Idle s ∧ (st.sv.sessions[s]?.any fun x => x.state == .authPending) = true ∧
    isValidUserId userId = true

instance (userId : Str) : Decidable (st.MayEnter s userId) :=
  inferInstanceAs (Decidable (_ ∧ _ ∧ _))

def authenticate (userId : Str) : Presences :=
  if st.MayEnter s userId then
    let sv := (st.sv.enterEstablished codec d s userId).register s userId
    { st with sv := sv }.moveOn s (some (.snapshot userId sv.onlineUsers))
  else st

def disconnected : Presences :=
  if st.Idle s then
    match st.sv.usersBySession.lookup s with
    | none => { st with sv := st.sv.unregister s }
    | some userId =>
      if userId.isEmpty then { st with sv := st.sv.unregister s }
      else { st with sv := st.sv.unregister s }.moveOn s (some (.announcing ⟨userId, .offline⟩))
  else st

/-- Whom `broadcast_presence` leaves out. -/
def excluded (update : PresenceUpdate) : Option SessionId :=
  if update.status = .online then some s else none

def next : Presences :=
  match st.stages.lookup s with
  | none => st
  | some (.snapshot userId (u :: rest)) =>
    (st.tell codec d s ⟨u, .online⟩).moveOn s (some (.snapshot userId rest))
  | some (.snapshot userId []) => st.moveOn s (some (.entered userId))
  | some (.entered userId) =>
    { st with sv := st.sv.beginTraffic codec d s userId }.moveOn s
      (some (.announcing ⟨userId, .online⟩))
  | some (.announcing update) =>
    st.moveOn s (some (.sending update (st.sv.broadcastTargets (excluded s update))))
  | some (.sending update (t :: rest)) =>
    (st.tell codec d t update).moveOn s (some (.sending update rest))
  | some (.sending update []) =>
    st.moveOn s (if update.status = .online then none else some (.leaving update.userId))
  | some (.leaving userId) =>
    { st with sv := st.sv.leaveVoiceRooms codec userId }.moveOn s none

def step (st : Presences) (m : PresenceMove) : Presences :=
  match m.act with
  | .authenticate s userId => st.authenticate codec m.draws s userId
  | .disconnected s => st.disconnected s
  | .next s => st.next codec m.draws s
  | .disconnect s => { st with sv := st.sv.disconnect s }
  | .disconnectRuns s => if st.Idle s then { st with sv := st.sv.onDisconnect s } else st

/-! ## What the sessions know -/

/-- The session is registered. -/
def Registered : Prop := ∃ e ∈ st.sv.sessionsByUser.entries, e.2 = t

instance : Decidable (st.Registered t) := inferInstanceAs (Decidable (∃ e ∈ _, _))

/-- The last presence message that the session got about the user. -/
def lastTold (u : Str) : Option PresenceStatus :=
  (st.told.filter fun e => e.1 = t ∧ e.2.userId = u).getLast?.map fun e => e.2.status

/-- The session takes the user for online exactly if the user is registered. -/
def Informed (u : Str) : Prop := st.lastTold t u = some .online ↔ u ∈ st.sv.sessionsByUser

/-- A handler, but not that of `s`, is still going to send the message to `t`. -/
def Awaits (s : Option SessionId) (update : PresenceUpdate) : Prop :=
  ∃ e ∈ st.stages.entries, s ≠ some e.1 ∧ e.2.Tells e.1 t update

instance (s : Option SessionId) (update : PresenceUpdate) : Decidable (st.Awaits t s update) :=
  inferInstanceAs (Decidable (∃ e ∈ _, _ ∧ _))

/-- When no handler is under way, all registered sessions are informed about all users. -/
def ViewsAgree : Prop :=
  (∀ s, st.Idle s) → ∀ t u, st.Registered t → st.Informed t u

/-- A presence message to a registered session is true when it is sent, or the truth is still to
come from another handler; and who is registered when a session enters is in its snapshot, or is
still to be announced. -/
def StaysCurrent (m : PresenceMove) : Prop :=
  match m.act with
  | .next s => ∀ e ∈ (st.stages.lookup s).bind (Stage.message s), st.Registered e.1 →
      e.2.status = st.sv.standing e.2.userId ∨
        st.Awaits e.1 (some s) ⟨e.2.userId, st.sv.standing e.2.userId⟩
  | .authenticate s userId => st.MayEnter s userId →
      ∀ e ∈ st.sv.sessionsByUser.entries, e.1 ≠ userId →
        (st.sv.sessions[e.2]?.any fun x => x.state == .established) = true ∨
          st.Awaits s none ⟨e.1, .online⟩
  | _ => True

instance (m : PresenceMove) : Decidable (st.StaysCurrent m) := by
  unfold StaysCurrent
  split <;> infer_instance

/-! ## The steps make up the handlers -/

/-- The handler of `s` goes on, and nobody else does anything. -/
def Continues : Presences → Presences → Prop :=
  Relation.ReflTransGen fun st st' => st' = st.next codec d s

variable {codec d st s} {userId : Str} {update : PresenceUpdate}

theorem lookup_moveOn (stage : Option Stage) (r : SessionId) :
    (st.moveOn s stage).stages.lookup r = if r = s then stage else st.stages.lookup r := by
  cases stage with
  | none => exact UnorderedMap.lookup_erase_ite _ _ _
  | some stage => exact UnorderedMap.lookup_insert_ite _ _ _ _

theorem lookup_moveOn_self (stage : Option Stage) : (st.moveOn s stage).stages.lookup s = stage :=
  (lookup_moveOn stage s).trans (if_pos rfl)

theorem continues_of_next {st' : Presences} (h : (st.next codec d s).Continues codec d s st') :
    st.Continues codec d s st' :=
  Relation.ReflTransGen.head rfl h

theorem continues_snapshot {rest : List Str}
    (h : st.stages.lookup s = some (.snapshot userId rest)) :
    ∃ st', st.Continues codec d s st' ∧ st'.sv = st.sv.sendPresenceSnapshot codec d s rest ∧
      st'.stages.lookup s = some (.entered userId) := by
  induction rest generalizing st with
  | nil =>
    refine ⟨st.next codec d s, .single rfl, ?_, ?_⟩
    · unfold next
      rw [h]
      rfl
    · unfold next
      rw [h]
      exact lookup_moveOn_self _
  | cons u rest ih =>
    have hnext : st.next codec d s =
        (st.tell codec d s ⟨u, .online⟩).moveOn s (some (.snapshot userId rest)) := by
      unfold next
      rw [h]
    obtain ⟨st', hgo, hsv, hstage⟩ := @ih (st.next codec d s) (by
      rw [hnext]
      exact lookup_moveOn_self _)
    rw [hnext] at hsv
    exact ⟨st', continues_of_next hgo, hsv, hstage⟩

theorem continues_sending {rest : List SessionId}
    (h : st.stages.lookup s = some (.sending update rest)) :
    ∃ st', st.Continues codec d s st' ∧
      st'.sv = rest.foldl (fun sv t => sv.send t (Server.presenceEnvelope codec d update)) st.sv ∧
      st'.stages.lookup s =
        if update.status = .online then none else some (.leaving update.userId) := by
  induction rest generalizing st with
  | nil =>
    refine ⟨st.next codec d s, .single rfl, ?_, ?_⟩
    · unfold next
      rw [h]
      rfl
    · unfold next
      rw [h]
      exact lookup_moveOn_self _
  | cons t rest ih =>
    have hnext : st.next codec d s =
        (st.tell codec d t update).moveOn s (some (.sending update rest)) := by
      unfold next
      rw [h]
    obtain ⟨st', hgo, hsv, hstage⟩ := @ih (st.next codec d s) (by
      rw [hnext]
      exact lookup_moveOn_self _)
    rw [hnext] at hsv
    exact ⟨st', continues_of_next hgo, hsv, hstage⟩

theorem continues_announcing (h : st.stages.lookup s = some (.announcing update)) :
    ∃ st', st.Continues codec d s st' ∧
      st'.sv = st.sv.broadcastPresence codec d update (excluded s update) ∧
      st'.stages.lookup s =
        if update.status = .online then none else some (.leaving update.userId) := by
  have hnext : st.next codec d s =
      st.moveOn s (some (.sending update (st.sv.broadcastTargets (excluded s update)))) := by
    unfold next
    rw [h]
  obtain ⟨st', hgo, hsv, hstage⟩ := @continues_sending codec d (st.next codec d s) s update _ (by
    rw [hnext]
    exact lookup_moveOn_self _)
  rw [hnext] at hsv
  exact ⟨st', continues_of_next hgo, hsv, hstage⟩

/-- A login whose steps come one right after the other is the end of `handle_auth_response`. -/
theorem continues_authenticate (h : st.MayEnter s userId) :
    ∃ st', (st.authenticate codec d s userId).Continues codec d s st' ∧ st'.Idle s ∧
      st'.sv = Server.establish codec d st.sv s userId := by
  let sv := (st.sv.enterEstablished codec d s userId).register s userId
  have henter : st.authenticate codec d s userId =
      { st with sv := sv }.moveOn s (some (.snapshot userId sv.onlineUsers)) := by
    unfold authenticate
    rw [if_pos h]
  obtain ⟨st₁, hgo₁, hsv₁, hstage₁⟩ := @continues_snapshot codec d
    (st.authenticate codec d s userId) s userId sv.onlineUsers (by
      rw [henter]
      exact lookup_moveOn_self _)
  have hnext : st₁.next codec d s =
      { st₁ with sv := st₁.sv.beginTraffic codec d s userId }.moveOn s
        (some (.announcing ⟨userId, .online⟩)) := by
    unfold next
    rw [hstage₁]
  obtain ⟨st₂, hgo₂, hsv₂, hstage₂⟩ := @continues_announcing codec d (st₁.next codec d s) s
    ⟨userId, .online⟩ (by
      rw [hnext]
      exact lookup_moveOn_self _)
  refine ⟨st₂, hgo₁.trans (continues_of_next hgo₂), hstage₂, ?_⟩
  rw [hsv₂, hnext]
  show (st₁.sv.beginTraffic codec d s userId).broadcastPresence codec d ⟨userId, .online⟩ (some s) =
    _
  rw [hsv₁, henter]
  rfl

/-- A disconnect whose steps come one right after the other is `on_session_disconnected`. -/
theorem continues_disconnected (h : st.Idle s) :
    ∃ st', (st.disconnected s).Continues codec d s st' ∧ st'.Idle s ∧
      st'.sv = st.sv.onSessionDisconnected codec d s := by
  unfold disconnected Server.onSessionDisconnected
  rw [if_pos h]
  cases st.sv.usersBySession.lookup s with
  | none => exact ⟨_, .refl, h, rfl⟩
  | some userId =>
    dsimp only
    split_ifs
    · exact ⟨_, .refl, h, rfl⟩
    · obtain ⟨st₁, hgo₁, hsv₁, hstage₁⟩ := @continues_announcing codec d
        ({ st with sv := st.sv.unregister s }.moveOn s (some (.announcing ⟨userId, .offline⟩))) s
        ⟨userId, .offline⟩ (lookup_moveOn_self _)
      have hstage : st₁.stages.lookup s = some (.leaving userId) := hstage₁
      have hnext : st₁.next codec d s =
          { st₁ with sv := st₁.sv.leaveVoiceRooms codec userId }.moveOn s none := by
        unfold next
        rw [hstage]
      refine ⟨st₁.next codec d s, hgo₁.tail rfl, ?_, ?_⟩
      · rw [hnext]
        exact lookup_moveOn_self _
      · rw [hnext]
        show st₁.sv.leaveVoiceRooms codec userId = _
        rw [hsv₁]
        rfl

end Presences

/-! ## What the steps leave alone -/

namespace Server

variable {codec : Codec} {d : Draws} {sv sv' : Server} {s : SessionId} {userId : Str}

/-- The session may be authenticated. -/
def Pending (sv : Server) (t : SessionId) : Prop :=
  ∃ c, sv.core t = some c ∧ c.state = .authPending

theorem standing_eq (sv : Server) (u : Str) :
    sv.standing u = if (sv.findSession u).isSome then .online else .offline := by
  unfold standing findSession
  simp only [AList.lookup_isSome]

theorem isEmpty_of_isValidUserId (h : isValidUserId userId = true) : userId.isEmpty = false := by
  unfold isValidUserId at h
  simp only [Bool.and_eq_true, Bool.not_eq_true'] at h
  exact h.1.1

/-- The registry stays as it is, and no session gets ready for authentication. -/
structure Steady (sv sv' : Server) : Prop where
  sessionsByUser : sv'.sessionsByUser = sv.sessionsByUser
  usersBySession : sv'.usersBySession = sv.usersBySession
  pending : ∀ t, sv'.Pending t → sv.Pending t

theorem Steady.refl (sv : Server) : Steady sv sv := ⟨rfl, rfl, fun _ h => h⟩

theorem Quiet.steady {r : Option SessionId} (h : Quiet False r sv sv') : Steady sv sv' where
  sessionsByUser := h.sessionsByUser
  usersBySession := h.usersBySession
  pending t ht := by
    obtain ⟨c, hc, hstate⟩ := ht
    exact ⟨c, (h.core t).symm.trans hc, hstate⟩

theorem steady_beginTraffic : Steady sv (sv.beginTraffic codec d s userId) := by
  have hping : Quiet False (some s) sv (sv.modify s Session.startPingTimer) :=
    quiet_modify writable_self _ fun _ => rfl
  have hlimiter (sv : Server) (limiter : RateLimiter) : Quiet False (some s) sv
      (sv.modify s fun x => { x with msgRateLimiter := some limiter }) :=
    quiet_modify writable_self _ fun _ => rfl
  exact ((hping.trans (hlimiter _ _)).trans (quiet_deliverOffline userId)).steady

theorem steady_onDisconnect : Steady sv (sv.onDisconnect s) where
  sessionsByUser := rfl
  usersBySession := rfl
  pending t ht := by
    obtain ⟨c', hc', hstate⟩ := ht
    have hcore := @core_modify sv s t
      (fun x => { x with disconnects := x.disconnects - 1, state := .dead, timer := none,
                         socketOpen := false })
      (fun c => { c with state := .dead, socketOpen := false }) fun _ => rfl
    have hc := hcore.symm.trans hc'
    split_ifs at hc
    · obtain ⟨c, -, rfl⟩ := Option.map_eq_some_iff.1 hc
      cases hstate
    · exact ⟨c', hc, hstate⟩

end Server

namespace Presences

section Views

variable {codec : Codec} {d : Draws} {st st' : Presences} {s t : SessionId} {userId u : Str}
  {update : PresenceUpdate} {stage : Stage} {stage' : Option Stage}

theorem registered_iff : st.Registered t ↔ ∃ u, st.sv.findSession u = some t := by
  constructor
  · rintro ⟨e, he, rfl⟩
    exact ⟨e.1, UnorderedMap.lookup_eq_some_of_mem_entries he⟩
  · rintro ⟨u, hu⟩
    exact ⟨⟨u, t⟩, AList.mem_lookup_iff.1 hu, rfl⟩

theorem awaits_iff {r : Option SessionId} : st.Awaits t r update ↔
    ∃ s stage, st.stages.lookup s = some stage ∧ r ≠ some s ∧ stage.Tells s t update := by
  constructor
  · rintro ⟨e, he, hr, htells⟩
    exact ⟨e.1, e.2, UnorderedMap.lookup_eq_some_of_mem_entries he, hr, htells⟩
  · rintro ⟨s, stage, hs, hr, htells⟩
    exact ⟨⟨s, stage⟩, AList.mem_lookup_iff.1 hs, hr, htells⟩

theorem informed_iff :
    st.Informed t u ↔ (st.lastTold t u = some .online ↔ st.sv.standing u = .online) := by
  unfold Informed Server.standing
  refine iff_congr Iff.rfl ?_
  split_ifs with hu
  · exact iff_of_true hu rfl
  · exact iff_of_false hu nofun

/-- After one more message, or none. -/
theorem lastTold_append {sent : Option (SessionId × PresenceUpdate)}
    (h : st'.told = st.told ++ sent.toList) : st'.lastTold t u =
      if ∃ e ∈ sent, e.1 = t ∧ e.2.userId = u then sent.map fun e => e.2.status
      else st.lastTold t u := by
  unfold lastTold
  rw [h, List.filter_append]
  cases sent with
  | none => simp
  | some e =>
    by_cases he : e.1 = t ∧ e.2.userId = u
    · rw [if_pos ⟨e, rfl, he⟩]
      simp [he]
    · rw [if_neg]
      · simp only [Option.toList_some, List.filter_singleton, he]
        simp
      · rintro ⟨e', he', h'⟩
        cases he'
        exact he h'

/-! ## The invariant -/

/-- A registered session knows who is online, or is still to be told; and a session that may be
authenticated has been told nothing. -/
structure Sound (st : Presences) : Prop where
  settled : ∀ t, st.Registered t → ¬ st.sv.Pending t
  named : ∀ s u, st.sv.usersBySession.lookup s = some u → u.isEmpty = false
  unheard : ∀ t, st.sv.Pending t → ∀ e ∈ st.told, e.1 ≠ t
  unreached : ∀ t, st.sv.Pending t → ∀ s stage, st.stages.lookup s = some stage →
    ¬ stage.Reaches s t
  views : ∀ t u, st.Registered t → st.Informed t u ∨ st.Awaits t none ⟨u, st.sv.standing u⟩

theorem sound_start (sv : Server) : (start sv).Sound where
  settled _ h := by
    obtain ⟨u, hu⟩ := registered_iff.1 h
    cases hu
  named _ _ h := by cases h
  unheard _ _ _ he := by cases he
  unreached _ _ _ _ h := by cases h
  views _ _ h := by
    obtain ⟨u, hu⟩ := registered_iff.1 h
    cases hu

theorem reaches_of_message {e : SessionId × PresenceUpdate} (he : e ∈ stage.message s) :
    stage.Reaches s e.1 := by
  cases stage with
  | snapshot userId rest =>
    cases rest with
    | nil => cases he
    | cons u rest =>
      cases he
      exact rfl
  | sending update rest =>
    cases rest with
    | nil => cases he
    | cons t rest =>
      cases he
      exact List.mem_cons_self
  | entered | announcing | leaving => cases he

/-- The handler of `s` sends its next message, if there is one, and gets from `stage` to
`stage'`. -/
theorem Sound.advance (h : st.Sound) (hstage : st.stages.lookup s = some stage)
    (steady : Server.Steady st.sv st'.sv)
    (told : st'.told = st.told ++ (stage.message s).toList)
    (stages : ∀ r, st'.stages.lookup r = if r = s then stage' else st.stages.lookup r)
    (reaches : ∀ next ∈ stage', ∀ t, next.Reaches s t → st.Registered t ∨ stage.Reaches s t)
    (tells : ∀ t update, st.Registered t → stage.Tells s t update →
      (∃ next ∈ stage', next.Tells s t update) ∨
        ∃ e ∈ stage.message s, e.1 = t ∧ e.2.userId = update.userId)
    (current : ∀ e ∈ stage.message s, st.Registered e.1 →
      e.2.status = st.sv.standing e.2.userId ∨
        st.Awaits e.1 (some s) ⟨e.2.userId, st.sv.standing e.2.userId⟩) : st'.Sound := by
  have hregistered (t : SessionId) (ht : st'.Registered t) : st.Registered t := by
    unfold Registered at ht
    rwa [steady.sessionsByUser] at ht
  have hstanding (u : Str) : st'.sv.standing u = st.sv.standing u := by
    unfold Server.standing
    rw [steady.sessionsByUser]
  -- The other handlers stand where they stood.
  have hothers (t : SessionId) (update : PresenceUpdate) (hawaits : st.Awaits t (some s) update) :
      st'.Awaits t none update := by
    obtain ⟨r, stage, hr, hrs, htells⟩ := awaits_iff.1 hawaits
    refine awaits_iff.2 ⟨r, stage, ?_, nofun, htells⟩
    rw [stages, if_neg fun e => hrs (congrArg some e.symm)]
    exact hr
  refine ⟨?_, ?_, ?_, ?_, ?_⟩
  · exact fun t ht hpending => h.settled t (hregistered t ht) (steady.pending t hpending)
  · rw [steady.usersBySession]
    exact h.named
  · intro t ht e he het
    rw [told] at he
    rcases List.mem_append.1 he with he | he
    · exact h.unheard t (steady.pending t ht) e he het
    · have hreaches := reaches_of_message (Option.mem_toList.1 he)
      rw [het] at hreaches
      exact h.unreached t (steady.pending t ht) s stage hstage hreaches
  · intro t ht r next hnext hreaches
    rw [stages] at hnext
    split_ifs at hnext with hrs
    · subst hrs
      rcases reaches next hnext t hreaches with hreg | hbefore
      · exact h.settled t hreg (steady.pending t ht)
      · exact h.unreached t (steady.pending t ht) r stage hstage hbefore
    · exact h.unreached t (steady.pending t ht) r next hnext hreaches
  · intro t u ht
    have ht := hregistered t ht
    rw [informed_iff, lastTold_append told, hstanding]
    split_ifs with hsent
    · obtain ⟨e, he, rfl, rfl⟩ := hsent
      rcases current e he ht with hstatus | hawaits
      · left
        rw [Option.mem_def.1 he, Option.map_some, hstatus, Option.some_inj]
      · exact Or.inr (hothers _ _ hawaits)
    · rcases h.views t u ht with hinformed | hawaits
      · exact Or.inl (informed_iff.1 hinformed)
      · right
        obtain ⟨r, before, hr, -, htells⟩ := awaits_iff.1 hawaits
        by_cases hrs : r = s
        · subst hrs
          cases hstage.symm.trans hr
          rcases tells t _ ht htells with ⟨next, hnext, htells'⟩ | hsent'
          · refine awaits_iff.2 ⟨r, next, ?_, nofun, htells'⟩
            rw [stages, if_pos rfl]
            exact hnext
          · exact absurd hsent' hsent
        · exact hothers _ _ (awaits_iff.2
            ⟨r, before, hr, fun e => hrs (Option.some.inj e).symm, htells⟩)

/-- The handler of `s` gets to another stage without sending anything. -/
theorem Sound.moveOn (h : st.Sound) {sv : Server} (hstage : st.stages.lookup s = some stage)
    (steady : Server.Steady st.sv sv) (silent : stage.message s = none)
    (reaches : ∀ next ∈ stage', ∀ t, next.Reaches s t → st.Registered t)
    (tells : ∀ t update, st.Registered t → stage.Tells s t update →
      ∃ next ∈ stage', next.Tells s t update) :
    ({ st with sv := sv }.moveOn s stage').Sound := by
  refine h.advance hstage steady ?_ (lookup_moveOn stage')
    (fun next hnext t ht => Or.inl (reaches next hnext t ht))
    (fun t update ht htells => Or.inl (tells t update ht htells)) ?_
  · rw [silent]
    exact (List.append_nil _).symm
  · rw [silent]
    exact fun _ he => by cases he

theorem sound_next (h : st.Sound) (hC : st.StaysCurrent ⟨d, .next s⟩) :
    (st.next codec d s).Sound := by
  have hC : ∀ e ∈ (st.stages.lookup s).bind (Stage.message s), st.Registered e.1 →
      e.2.status = st.sv.standing e.2.userId ∨
        st.Awaits e.1 (some s) ⟨e.2.userId, st.sv.standing e.2.userId⟩ := hC
  unfold next
  split
  · exact h
  · rename_i userId u rest hstage
    rw [hstage] at hC
    refine h.advance hstage (Server.quiet_send Server.writable_self _).steady rfl
      (lookup_moveOn _) ?_ ?_ hC
    · rintro next ⟨⟩ t ht
      exact Or.inr ht
    · rintro t update - ⟨hstatus, htells⟩
      by_cases hts : t = s
      · rw [if_pos hts] at htells
        rcases List.mem_cons.1 htells with hu | hrest
        · exact Or.inr ⟨_, rfl, hts.symm, hu.symm⟩
        · exact Or.inl ⟨_, rfl, hstatus, by rwa [if_pos hts]⟩
      · rw [if_neg hts] at htells
        exact Or.inl ⟨_, rfl, hstatus, by rwa [if_neg hts]⟩
  · rename_i userId hstage
    refine h.moveOn hstage (.refl _) rfl ?_ ?_
    · rintro next ⟨⟩ t ⟨⟩
    · rintro t ⟨u, status⟩ - ⟨hstatus, htells⟩
      refine ⟨_, rfl, ?_⟩
      by_cases hts : t = s
      · rw [if_pos hts] at htells
        cases htells
      · rw [if_neg hts] at htells
        exact ⟨hts, congrArg₂ PresenceUpdate.mk htells hstatus⟩
  · rename_i userId hstage
    refine h.moveOn hstage Server.steady_beginTraffic rfl ?_ ?_
    · rintro next ⟨⟩ t ⟨⟩
    · rintro t update - ⟨hts, rfl⟩
      exact ⟨_, rfl, rfl, fun _ => hts⟩
  · rename_i update hstage
    refine h.moveOn hstage (.refl _) rfl ?_ ?_
    · rintro next ⟨⟩ t ht
      exact registered_iff.2 ((Server.mem_broadcastTargets st.sv _).1 ht).1
    · rintro t update' ht ⟨rfl, hts⟩
      refine ⟨_, rfl, rfl, (Server.mem_broadcastTargets st.sv _).2 ⟨registered_iff.1 ht, ?_⟩⟩
      unfold excluded
      split_ifs with hstatus
      · exact fun e => hts hstatus (Option.some.inj e)
      · exact nofun
  · rename_i update t rest hstage
    rw [hstage] at hC
    refine h.advance hstage (Server.quiet_send Server.writable_self _).steady rfl
      (lookup_moveOn _) ?_ ?_ hC
    · rintro next ⟨⟩ t' ht'
      exact Or.inr (List.mem_cons_of_mem t ht')
    · rintro t' update' - ⟨rfl, ht'⟩
      rcases List.mem_cons.1 ht' with htt | hrest
      · exact Or.inr ⟨_, rfl, htt.symm, rfl⟩
      · exact Or.inl ⟨_, rfl, rfl, hrest⟩
  · rename_i update hstage
    refine h.moveOn hstage (.refl _) rfl ?_ ?_
    · intro next hnext t ht
      split_ifs at hnext
      · cases hnext
      · cases hnext
        cases ht
    · rintro t update' - ⟨-, ht⟩
      cases ht
  · rename_i userId hstage
    refine h.moveOn hstage (Server.quiet_leaveVoiceRooms (t := none) userId).steady rfl ?_ ?_
    · rintro next ⟨⟩
    · rintro t update - ⟨⟩

/-- A handler starts with a change of the registry and has `stage` before it. -/
theorem Sound.begins (h : st.Sound) (hidle : st.Idle s) (told : st'.told = st.told)
    (stages : ∀ r, st'.stages.lookup r = if r = s then some stage else st.stages.lookup r)
    (settled : ∀ t, st'.Registered t → ¬ st'.sv.Pending t)
    (named : ∀ s u, st'.sv.usersBySession.lookup s = some u → u.isEmpty = false)
    (pending : ∀ t, st'.sv.Pending t → st.sv.Pending t ∧ ¬ stage.Reaches s t)
    (views : ∀ t u, st'.Registered t →
      st.Registered t ∧ st'.sv.standing u = st.sv.standing u ∨
        stage.Tells s t ⟨u, st'.sv.standing u⟩ ∨ st.Awaits t none ⟨u, st'.sv.standing u⟩ ∨
        st'.Informed t u) : st'.Sound := by
  have hawaits (t : SessionId) (update : PresenceUpdate) (hbefore : st.Awaits t none update) :
      st'.Awaits t none update := by
    obtain ⟨r, other, hr, -, htells⟩ := awaits_iff.1 hbefore
    refine awaits_iff.2 ⟨r, other, ?_, nofun, htells⟩
    rw [stages, if_neg]
    · exact hr
    · rintro rfl
      cases hidle.symm.trans hr
  refine ⟨settled, named, ?_, ?_, ?_⟩
  · intro t ht
    rw [told]
    exact h.unheard t (pending t ht).1
  · intro t ht r next hnext
    rw [stages] at hnext
    split_ifs at hnext with hrs
    · cases hnext
      rw [hrs]
      exact (pending t ht).2
    · exact h.unreached t (pending t ht).1 r next hnext
  · intro t u ht
    rcases views t u ht with ⟨hreg, hstanding⟩ | htells | hbefore | hinformed
    · rcases h.views t u hreg with hinformed | hbefore
      · left
        rw [informed_iff, hstanding]
        unfold lastTold
        rw [told]
        exact informed_iff.1 hinformed
      · right
        rw [hstanding]
        exact hawaits t _ hbefore
    · right
      refine awaits_iff.2 ⟨s, stage, ?_, nofun, htells⟩
      rw [stages, if_pos rfl]
    · exact Or.inr (hawaits t _ hbefore)
    · exact Or.inl hinformed

/-- Who is not registered any more is announced as offline. -/
theorem sound_disconnected (h : st.Sound) : (st.disconnected s).Sound := by
  unfold disconnected
  split_ifs with hidle
  swap
  · exact h
  have hpending (t : SessionId) (ht : (st.sv.unregister s).Pending t) : st.sv.Pending t := by
    obtain ⟨c, hc, hstate⟩ := ht
    exact ⟨c, (st.sv.core_unregister s t).symm.trans hc, hstate⟩
  rcases st.sv.unregister_cases s with ⟨huser, e⟩ | ⟨userId, huser, -⟩
  · rw [huser]
    dsimp only
    rw [e]
    exact ⟨h.settled, h.named, h.unheard, h.unreached, h.views⟩
  · rw [huser]
    dsimp only
    rw [if_neg (by rw [h.named s userId huser]; exact Bool.false_ne_true)]
    have hfind (u : Str) : (st.sv.unregister s).findSession u =
        if u = userId then none else st.sv.findSession u := by
      unfold Server.findSession
      rw [Server.sessionsByUser_unregister huser]
      exact UnorderedMap.lookup_erase_ite _ _ _
    have hregistered (t : SessionId) (ht : ∃ u, (st.sv.unregister s).findSession u = some t) :
        st.Registered t := by
      obtain ⟨u, hu⟩ := ht
      rw [hfind] at hu
      split_ifs at hu
      exact registered_iff.2 ⟨u, hu⟩
    refine h.begins hidle rfl (lookup_moveOn _) ?_ ?_ ?_ ?_
    · intro t ht hpend
      exact h.settled t (hregistered t (registered_iff.1 ht)) (hpending t hpend)
    · intro t u ht
      have ht := (st.sv.lookup_unregister s t).symm.trans ht
      split_ifs at ht
      exact h.named t u ht
    · exact fun t ht => ⟨hpending t ht, fun hreaches => hreaches⟩
    · intro t u ht
      by_cases hu : u = userId
      · right
        left
        have hoffline : (st.sv.unregister s).standing u = .offline := by
          rw [Server.standing_eq, hfind, if_pos hu]
          rfl
        exact ⟨congrArg₂ PresenceUpdate.mk hu hoffline, fun honline => by
          cases hoffline.symm.trans honline⟩
      · left
        refine ⟨hregistered t (registered_iff.1 ht), ?_⟩
        show (st.sv.unregister s).standing u = _
        rw [Server.standing_eq, Server.standing_eq, hfind, if_neg hu]

/-- A session that is not registered yet has been told nothing. -/
theorem Sound.lastTold_of_pending (h : st.Sound) (hpending : st.sv.Pending t) (u : Str) :
    st.lastTold t u = none := by
  unfold lastTold
  rw [List.filter_eq_nil_iff.2 fun e he => ?_]
  · rfl
  · simp [h.unheard t hpending e he]

/-- Who is registered when a session enters is in its snapshot, or is still to be announced. -/
theorem snapshot_or_awaits {sv : Server} {c : SessionCore} {r : SessionId} {u : Str}
    (hfind : ∀ u, sv.findSession u = if u = userId then some s else st.sv.findSession u)
    (hcore : ∀ t, sv.core t =
      if s = t then (st.sv.core t).map (Server.authenticated userId) else st.sv.core t)
    (hc : st.sv.core s = some c) (hpend : c.state = .authPending)
    (hC : ∀ e ∈ st.sv.sessionsByUser.entries, e.1 ≠ userId →
      (st.sv.sessions[e.2]?.any fun x => x.state == .established) = true ∨
        st.Awaits s none ⟨e.1, .online⟩)
    (hu : sv.findSession u = some r) :
    Stage.Tells s s ⟨u, .online⟩ (.snapshot userId sv.onlineUsers) ∨
      st.Awaits s none ⟨u, .online⟩ := by
  have hsnapshot {c : SessionCore} (hr : sv.core r = some c)
      (hestablished : c.state = .established) :
      Stage.Tells s s ⟨u, .online⟩ (.snapshot userId sv.onlineUsers) :=
    ⟨rfl, by
      rw [if_pos rfl]
      exact Server.mem_onlineUsers hu hr hestablished⟩
  by_cases huser : u = userId
  · have hself := hcore s
    rw [if_pos rfl, hc, Option.map_some] at hself
    rw [hfind, if_pos huser] at hu
    cases hu
    exact Or.inl (hsnapshot hself rfl)
  · have hbefore := hu
    rw [hfind, if_neg huser] at hbefore
    rcases hC ⟨u, r⟩ (AList.mem_lookup_iff.1 hbefore) huser with hestablished | hawaits
    · obtain ⟨c', hc', hstate'⟩ := Server.any_state_iff.1 hestablished
      have hrs : s ≠ r := by
        rintro rfl
        cases hc.symm.trans hc'
        cases hpend.symm.trans hstate'
      have hr := hcore r
      rw [if_neg hrs] at hr
      exact Or.inl (hsnapshot (hr.trans hc') hstate')
    · exact Or.inr hawaits

theorem sound_authenticate (h : st.Sound) (hC : st.StaysCurrent ⟨d, .authenticate s userId⟩) :
    (st.authenticate codec d s userId).Sound := by
  have hC : st.MayEnter s userId → ∀ e ∈ st.sv.sessionsByUser.entries, e.1 ≠ userId →
      (st.sv.sessions[e.2]?.any fun x => x.state == .established) = true ∨
        st.Awaits s none ⟨e.1, .online⟩ := hC
  unfold authenticate
  split_ifs with henter
  swap
  · exact h
  have hC := hC henter
  obtain ⟨hidle, hstate, hvalid⟩ := henter
  obtain ⟨c, hc, hpend⟩ := Server.any_state_iff.1 hstate
  have hmoves := @Server.enterEstablished_moves codec d st.sv s userId
  have husers (t : SessionId) (u : Str) (hu : ((st.sv.enterEstablished codec d s userId).register s
      userId).usersBySession.lookup t = some u) : u.isEmpty = false := by
    rcases Server.lookup_of_register hu with hbefore | ⟨-, huser⟩
    · rw [hmoves.usersBySession] at hbefore
      exact h.named t u hbefore
    · rw [← huser]
      exact Server.isEmpty_of_isValidUserId hvalid
  have hfind (u : Str) : ((st.sv.enterEstablished codec d s userId).register s userId).findSession
      u = if u = userId then some s else st.sv.findSession u := by
    rw [Server.findSession_register]
    unfold Server.findSession
    rw [hmoves.sessionsByUser]
  have hcore (t : SessionId) : ((st.sv.enterEstablished codec d s userId).register s userId).core
      t = if s = t then (st.sv.core t).map (Server.authenticated userId) else st.sv.core t := by
    rw [Server.core_register]
    exact hmoves.core t
  generalize (st.sv.enterEstablished codec d s userId).register s userId = sv
    at husers hfind hcore ⊢
  have hpending (t : SessionId) (ht : sv.Pending t) : st.sv.Pending t ∧ t ≠ s := by
    obtain ⟨c, hc, hstate⟩ := ht
    rw [hcore] at hc
    split_ifs at hc with hst
    · obtain ⟨c', -, rfl⟩ := Option.map_eq_some_iff.1 hc
      cases hstate
    · exact ⟨⟨c, hc, hstate⟩, Ne.symm hst⟩
  have hregistered (t : SessionId) (hts : t ≠ s) (ht : ∃ u, sv.findSession u = some t) :
      st.Registered t := by
    obtain ⟨u, hu⟩ := ht
    rw [hfind] at hu
    split_ifs at hu
    · exact absurd (Option.some.inj hu).symm hts
    · exact registered_iff.2 ⟨u, hu⟩
  refine h.begins hidle rfl (lookup_moveOn _) ?_ husers hpending ?_
  · intro t ht hpendt
    obtain ⟨hbefore, hts⟩ := hpending t hpendt
    exact h.settled t (hregistered t hts (registered_iff.1 ht)) hbefore
  · intro t u ht
    by_cases hts : t = s
    · right
      rw [hts]
      cases hu : sv.findSession u with
      | none =>
        have hnothing : st.lastTold s u = none := h.lastTold_of_pending ⟨c, hc, hpend⟩ u
        right
        right
        rw [informed_iff]
        show st.lastTold s u = some .online ↔ sv.standing u = .online
        rw [hnothing, Server.standing_eq, hu]
        exact iff_of_false nofun nofun
      | some r =>
        have honline : sv.standing u = .online := by
          rw [Server.standing_eq, hu]
          rfl
        show Stage.Tells s s ⟨u, sv.standing u⟩ (.snapshot userId sv.onlineUsers) ∨
          st.Awaits s none ⟨u, sv.standing u⟩ ∨ _
        rw [honline]
        rcases snapshot_or_awaits hfind hcore hc hpend hC hu with htells | hawaits
        · exact Or.inl htells
        · exact Or.inr (Or.inl hawaits)
    · by_cases hu : u = userId
      · right
        left
        refine ⟨?_, ?_⟩
        · show sv.standing u = _
          rw [Server.standing_eq, hfind, if_pos hu]
          rfl
        · rw [if_neg hts]
          exact hu
      · left
        refine ⟨hregistered t hts (registered_iff.1 ht), ?_⟩
        show sv.standing u = _
        rw [Server.standing_eq, Server.standing_eq, hfind, if_neg hu]

theorem sound_step (codec : Codec) {m : PresenceMove} (h : st.Sound) (hC : st.StaysCurrent m) :
    (st.step codec m).Sound := by
  obtain ⟨d, act⟩ := m
  -- Without a change of the registry or of the handlers only the sessions may have changed.
  have hsteady {sv : Server} (steady : Server.Steady st.sv sv) :
      Presences.Sound { st with sv := sv } := by
    obtain ⟨hsettled, hnamed, hunheard, hunreached, hviews⟩ := h
    obtain ⟨hsessions, husers, hpending⟩ := steady
    refine ⟨fun t ht hpend => ?_, ?_, fun t ht => hunheard t (hpending t ht),
      fun t ht => hunreached t (hpending t ht), ?_⟩
    · refine hsettled t ?_ (hpending t hpend)
      unfold Registered at ht
      rwa [hsessions] at ht
    · rw [husers]
      exact hnamed
    · unfold Registered Informed Server.standing at hviews ⊢
      dsimp only
      rw [hsessions]
      exact hviews
  cases act with
  | authenticate s userId => exact sound_authenticate h hC
  | disconnected s => exact sound_disconnected h
  | next s => exact sound_next h hC
  | disconnect s =>
    exact hsteady (Server.quiet_disconnect (s := some s) Server.writable_self).steady
  | disconnectRuns s =>
    unfold step
    dsimp only
    split_ifs
    · exact hsteady Server.steady_onDisconnect
    · exact h

theorem Sound.viewsAgree (h : st.Sound) : st.ViewsAgree := by
  intro hidle t u ht
  refine (h.views t u ht).resolve_right fun hawaits => ?_
  obtain ⟨s, stage, hs, -⟩ := awaits_iff.1 hawaits
  cases (hidle s).symm.trans hs

/-- As long as every presence message to a registered session is true when it is sent, or about to
be corrected, and whoever is missing in a snapshot is about to be announced, all registered sessions
agree with the registry whenever no handler is under way. -/
theorem views_agree (codec : Codec) (sv : Server) (ms : List PresenceMove)
    (h : AllSteps (step codec) StaysCurrent (start sv) ms) :
    AllStates (step codec) ViewsAgree (start sv) ms :=
  (AllStates.of_steps (sound_start sv) (fun _ _ => sound_step codec) h).mono fun _ =>
    Sound.viewsAgree

end Views

/-! ## An `OFFLINE` that comes late -/

/-- Three clients have connected and are about to log in. -/
def threeConnected : Server :=
  final (Server.step .proto3 (.ofSignatures [])) (.start ⟨10, 10, 10, []⟩ .empty)
    (([0, 1, 2].flatMap fun s => [Event.accept (str "127.0.0.1"), .handshakeDone s true] ++
      frameEvents s .hello (Codec.proto3.hello.serialize ⟨1, []⟩)).map Event.atZero)

def movesOf (acts : List PresenceAct) : List PresenceMove :=
  acts.map fun act => ⟨Event.acceptError.atZero.draws, act⟩

/-- `carol` and `alice` log in, one after the other. -/
def twoLogins : List PresenceMove :=
  movesOf ([.authenticate 0 (str "carol")] ++ List.replicate 5 (.next 0) ++
    [.authenticate 1 (str "alice")] ++ List.replicate 7 (.next 1))

/-- The session of `alice` ends, and she logs in again before that is announced. -/
def lateOffline : List PresenceMove :=
  twoLogins ++ movesOf ([.disconnected 1, .authenticate 2 (str "alice")] ++
    List.replicate 7 (.next 2) ++ List.replicate 5 (.next 1))

theorem views_agree_twoLogins :
    AllStates (step .proto3) ViewsAgree (start threeConnected) twoLogins :=
  views_agree .proto3 threeConnected twoLogins (by decide +kernel)

/-- In the end `carol` takes `alice` for offline, who is registered. -/
theorem not_viewsAgree_lateOffline :
    ¬ AllStates (step .proto3) ViewsAgree (start threeConnected) lateOffline := by
  intro hall
  have hend : (final (step .proto3) (start threeConnected) lateOffline).stages.keys = [] ∧
      (final (step .proto3) (start threeConnected) lateOffline).Registered 0 ∧
      (final (step .proto3) (start threeConnected) lateOffline).lastTold 0 (str "alice") =
        some .offline ∧
      str "alice" ∈
        (final (step .proto3) (start threeConnected) lateOffline).sv.sessionsByUser := by
    decide +kernel
  obtain ⟨hkeys, hregistered, htold, honline⟩ := hend
  have hidle (s : SessionId) :
      (final (step .proto3) (start threeConnected) lateOffline).Idle s := by
    refine AList.lookup_eq_none.2 fun hs => ?_
    rw [AList.mem_keys, hkeys] at hs
    cases hs
  have hinformed := (hall.final hidle 0 (str "alice") hregistered).2 honline
  cases htold.symm.trans hinformed

end Presences

end Ircord

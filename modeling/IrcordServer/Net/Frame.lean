import IrcordServer.Commands.Effects
import IrcordServer.Net.Step

/-!
# What handlers leave alone

Most handlers write to sessions, ask some to close, and change the tables, the channels and the
voice rooms; they do not touch the protocol state of any session, nor who is registered.  Such a
handler is `Quiet`.  The sessions it writes to are its own and registered ones: nothing else about
the server holds a `shared_ptr` to a session.
-/

open Container

namespace Ircord

/-- The part of a session that decides how it goes on. -/
structure SessionCore where
  state : SessionState
  userId : Str
  authNonce : Bytes
  handshaking : Bool
  reading : Option ReadOp
  socketOpen : Bool

def Session.core (x : Session) : SessionCore :=
  ⟨x.state, x.userId, x.authNonce, x.handshaking, x.reading, x.socketOpen⟩

namespace Server

def core (sv : Server) (s : SessionId) : Option SessionCore := (sv.sessions[s]?).map Session.core

/-- `sv'` comes from `sv` by a quiet handler of the session `s`; without `s`, of no session.  Only
if `clears`, the handler may have removed all users. -/
structure Quiet (clears : Prop) (s : Option SessionId) (sv sv' : Server) : Prop where
  core : ∀ t, sv'.core t = sv.core t
  untouched : ∀ t, s ≠ some t → ¬ sv.Registered t → sv'.sessions[t]? = sv.sessions[t]?
  sessionsByUser : sv'.sessionsByUser = sv.sessionsByUser
  usersBySession : sv'.usersBySession = sv.usersBySession
  activeConnections : sv'.activeConnections = sv.activeConnections
  disconnected : sv'.disconnected = sv.disconnected
  keys : UserStore.KeysKept clears sv.db sv'.db

namespace Quiet

variable {clears : Prop} {s : Option SessionId} {sv sv' sv'' : Server}

theorem refl (s : Option SessionId) (sv : Server) : Quiet clears s sv sv :=
  ⟨fun _ => rfl, fun _ _ _ => rfl, rfl, rfl, rfl, rfl, UserStore.keysKept_of_users_eq rfl⟩

theorem registered (h : Quiet clears s sv sv') (t : SessionId) :
    sv'.Registered t ↔ sv.Registered t := by
  unfold Registered
  rw [h.sessionsByUser, h.usersBySession]

theorem trans (h : Quiet clears s sv sv') (h' : Quiet clears s sv' sv'') :
    Quiet clears s sv sv'' where
  core t := (h'.core t).trans (h.core t)
  untouched t hs ht :=
    (h'.untouched t hs fun ht' => ht ((h.registered t).1 ht')).trans (h.untouched t hs ht)
  sessionsByUser := h'.sessionsByUser.trans h.sessionsByUser
  usersBySession := h'.usersBySession.trans h.usersBySession
  activeConnections := h'.activeConnections.trans h.activeConnections
  disconnected := h'.disconnected.trans h.disconnected
  keys := h.keys.trans h'.keys id

theorem mono {clears' : Prop} (h : Quiet clears s sv sv') (hclears : clears → clears') :
    Quiet clears' s sv sv' :=
  { h with keys := h.keys.mono hclears }

/-- A handler that leaves all of this as it was is quiet. -/
theorem of_eq (sessions : sv'.sessions = sv.sessions)
    (sessionsByUser : sv'.sessionsByUser = sv.sessionsByUser)
    (usersBySession : sv'.usersBySession = sv.usersBySession)
    (activeConnections : sv'.activeConnections = sv.activeConnections)
    (disconnected : sv'.disconnected = sv.disconnected) (users : sv'.db.users = sv.db.users) :
    Quiet clears s sv sv' where
  core t := by rw [Server.core, Server.core, sessions]
  untouched t _ _ := by rw [sessions]
  sessionsByUser := sessionsByUser
  usersBySession := usersBySession
  activeConnections := activeConnections
  disconnected := disconnected
  keys := UserStore.keysKept_of_users_eq users

/-- A fold whose rounds are quiet is quiet. -/
theorem foldl {β : Type} {f : Server → β → Server} {bs : List β}
    (hf : ∀ b ∈ bs, ∀ sv', Quiet clears s sv sv' → Quiet clears s sv' (f sv' b)) :
    Quiet clears s sv (bs.foldl f sv) := by
  have hfold : ∀ (cs : List β), (∀ b ∈ cs, b ∈ bs) → ∀ sv', Quiet clears s sv sv' →
      Quiet clears s sv (cs.foldl f sv') := by
    intro cs
    induction cs with
    | nil => exact fun _ sv' h => h
    | cons c cs ih =>
      intro hcs sv' h
      have hc := h.trans (hf c (hcs c List.mem_cons_self) sv' h)
      exact ih (fun b hb => hcs b (List.mem_cons_of_mem c hb)) _ hc
  exact hfold bs (fun _ hb => hb) sv (refl s sv)

end Quiet

/-! ## Changing one session -/

section Sessions

variable (sv : Server) (s t : SessionId)

theorem sessions_modify (f : Session → Session) :
    (sv.modify s f).sessions[t]? = if s = t then (sv.sessions[t]?).map f else sv.sessions[t]? := by
  show (sv.sessions.modify s f)[t]? = _
  rw [List.getElem?_modify]
  split_ifs with h
  · rfl
  · exact Option.map_id'

/-- A change of a session that acts on its core as `g`. -/
theorem core_modify {f : Session → Session} {g : SessionCore → SessionCore}
    (hf : ∀ x, (f x).core = g x.core) :
    (sv.modify s f).core t = if s = t then (sv.core t).map g else sv.core t := by
  unfold core
  rw [sessions_modify]
  split_ifs with h
  · rw [Option.map_map, Option.map_map]
    exact congrArg (Option.map · _) (funext hf)
  · rfl

theorem registered_iff :
    sv.Registered s ↔
      s ∈ sv.usersBySession ∨ ∃ userId, sv.sessionsByUser.lookup userId = some s := by
  refine or_congr Iff.rfl ⟨?_, ?_⟩
  · rintro ⟨e, he, rfl⟩
    exact ⟨e.1, UnorderedMap.lookup_eq_some_of_mem_entries he⟩
  · rintro ⟨userId, h⟩
    exact ⟨⟨userId, s⟩, AList.mem_lookup_iff.1 h, rfl⟩

theorem registered_of_findSession {userId : Str} (h : sv.findSession userId = some s) :
    sv.Registered s :=
  (registered_iff sv s).2 (Or.inr ⟨userId, h⟩)

end Sessions

/-! ## Quiet operations -/

section Operations

variable {clears : Prop} {codec : Codec} {d : Draws} {sv : Server} {s : Option SessionId}
  {t : SessionId}

/-- Whom a handler of `s` may write to. -/
def Writable (sv : Server) (s : Option SessionId) (t : SessionId) : Prop :=
  s = some t ∨ sv.Registered t

theorem writable_self : sv.Writable (some t) t := Or.inl rfl

/-- A change of the record that the core does not show. -/
theorem quiet_modify (ht : sv.Writable s t) (f : Session → Session)
    (hf : ∀ x, (f x).core = x.core) : Quiet clears s sv (sv.modify t f) where
  core t' := by
    rw [@core_modify sv t t' f id hf, Option.map_id, id_eq, ite_self]
  untouched t' hs ht' := by
    rw [sessions_modify, if_neg]
    rintro rfl
    exact ht.elim hs ht'
  sessionsByUser := rfl
  usersBySession := rfl
  activeConnections := rfl
  disconnected := rfl
  keys := UserStore.keysKept_of_users_eq rfl

/-- New tables with the same users and keys. -/
theorem quiet_setDb {db : Database} (h : UserStore.KeysKept clears sv.db db) :
    Quiet clears s sv { sv with db := db } :=
  ⟨fun _ => rfl, fun _ _ _ => rfl, rfl, rfl, rfl, rfl, h⟩

theorem quiet_setDb_of_users_eq {db : Database} (h : db.users = sv.db.users) :
    Quiet clears s sv { sv with db := db } :=
  quiet_setDb (UserStore.keysKept_of_users_eq h)

theorem quiet_setVoice (voice : VoiceRoomManager) : Quiet clears s sv { sv with voice := voice } :=
  ⟨fun _ => rfl, fun _ _ _ => rfl, rfl, rfl, rfl, rfl, UserStore.keysKept_of_users_eq rfl⟩

theorem quiet_send (ht : sv.Writable s t) (env : Envelope) : Quiet clears s sv (sv.send t env) :=
  (quiet_modify ht (fun x => { x with writes := x.writes + 1 }) fun _ => rfl).trans
    (.of_eq rfl rfl rfl rfl rfl rfl)

theorem quiet_disconnect (ht : sv.Writable s t) : Quiet clears s sv (sv.disconnect t) :=
  quiet_modify ht _ fun _ => rfl

theorem quiet_sendEnvelope (type : MessageType) (payload : Bytes) :
    Quiet clears (some t) sv (sv.sendEnvelope d t type payload) := by
  unfold sendEnvelope
  split
  · exact .refl _ _
  · exact (quiet_modify writable_self (fun x => { x with nextSeq := x.nextSeq + 1 })
      fun _ => rfl).trans (quiet_send writable_self _)

theorem quiet_sendError (code : UInt32) (message : String) :
    Quiet clears (some t) sv (sv.sendError codec d t code message) :=
  quiet_sendEnvelope _ _

theorem quiet_sendError_disconnect (code : UInt32) (message : String) :
    Quiet clears (some t) sv ((sv.sendError codec d t code message).disconnect t) :=
  (quiet_sendError code message).trans (quiet_disconnect writable_self)

theorem quiet_authFail (code : UInt32) (message : Str) :
    Quiet clears (some t) sv (sv.authFail codec d t code message) :=
  (quiet_sendEnvelope _ _).trans (quiet_disconnect writable_self)

theorem quiet_run {actions : List Action} (h : Action.About (sv.Writable s) actions) :
    Quiet clears s sv (sv.run actions) := by
  refine Quiet.foldl fun a ha sv' hsv' => ?_
  have hwritable : sv'.Writable s a.session := (h a ha).imp id (hsv'.registered _).2
  cases a with
  | send t env => exact quiet_send hwritable env
  | disconnect t reason => exact quiet_disconnect hwritable

theorem about_writable {actions : List Action} (h : Action.About (Found sv.findSession) actions) :
    Action.About (sv.Writable s) actions :=
  h.mono fun t ⟨_, ht⟩ => Or.inr (registered_of_findSession sv t ht)

theorem quiet_broadcast (env : Envelope) (exclude : Option SessionId) :
    Quiet clears s sv (sv.broadcast env exclude) := by
  refine Quiet.foldl fun t ht sv' hsv' => quiet_send (Or.inr ((hsv'.registered t).2 ?_)) env
  obtain ⟨e, he, rfl⟩ := List.mem_map.1 (List.mem_filter.1 ht).1
  exact Or.inr ⟨e, he, rfl⟩

theorem quiet_broadcastPresence (update : PresenceUpdate) (exclude : Option SessionId) :
    Quiet clears s sv (sv.broadcastPresence codec d update exclude) :=
  quiet_broadcast _ _

theorem quiet_sendPresenceSnapshot (userIds : List Str) :
    Quiet clears (some t) sv (sv.sendPresenceSnapshot codec d t userIds) :=
  Quiet.foldl fun _ _ _ _ => quiet_send writable_self _

theorem quiet_allowMessage {x : Session} : Quiet clears (some t) sv (sv.allowMessage d t x).2 := by
  unfold allowMessage
  split
  · exact .refl _ _
  · exact quiet_modify writable_self _ fun _ => rfl

end Operations

/-! ## A change of the protocol state -/

/-- `sv'` comes from `sv` by a handler that changes the core of `s` as `g` does, and is quiet
otherwise. -/
structure Moves (clears : Prop) (s : SessionId) (g : SessionCore → SessionCore)
    (sv sv' : Server) : Prop where
  core : ∀ t, sv'.core t = if s = t then (sv.core t).map g else sv.core t
  untouched : ∀ t, s ≠ t → ¬ sv.Registered t → sv'.sessions[t]? = sv.sessions[t]?
  sessionsByUser : sv'.sessionsByUser = sv.sessionsByUser
  usersBySession : sv'.usersBySession = sv.usersBySession
  activeConnections : sv'.activeConnections = sv.activeConnections
  disconnected : sv'.disconnected = sv.disconnected
  keys : UserStore.KeysKept clears sv.db sv'.db

section Moves

variable {clears : Prop} {sv sv' sv'' : Server} {s : SessionId} {g g' : SessionCore → SessionCore}

theorem Moves.registered (h : Moves clears s g sv sv') (t : SessionId) :
    sv'.Registered t ↔ sv.Registered t := by
  unfold Registered
  rw [h.sessionsByUser, h.usersBySession]

theorem moves_modify (f : Session → Session) (hf : ∀ x, (f x).core = g x.core) :
    Moves clears s g sv (sv.modify s f) where
  core t := core_modify sv s t hf
  untouched t ht _ := by rw [sessions_modify, if_neg ht]
  sessionsByUser := rfl
  usersBySession := rfl
  activeConnections := rfl
  disconnected := rfl
  keys := UserStore.keysKept_of_users_eq rfl

theorem Moves.mono {clears' : Prop} (h : Moves clears s g sv sv') (hclears : clears → clears') :
    Moves clears' s g sv sv' :=
  { h with keys := h.keys.mono hclears }

theorem Quiet.moves (h : Quiet clears (some s) sv sv') : Moves clears s id sv sv' where
  core t := by rw [h.core, Option.map_id, id_eq, ite_self]
  untouched t ht := h.untouched t fun e => ht (Option.some.inj e)
  sessionsByUser := h.sessionsByUser
  usersBySession := h.usersBySession
  activeConnections := h.activeConnections
  disconnected := h.disconnected
  keys := h.keys

theorem Moves.trans_quiet (h : Moves clears s g sv sv') (h' : Quiet clears (some s) sv' sv'') :
    Moves clears s g sv sv'' where
  core t := (h'.core t).trans (h.core t)
  untouched t ht hreg := (h'.untouched t (fun e => ht (Option.some.inj e))
    fun hreg' => hreg ((h.registered t).1 hreg')).trans (h.untouched t ht hreg)
  sessionsByUser := h'.sessionsByUser.trans h.sessionsByUser
  usersBySession := h'.usersBySession.trans h.usersBySession
  activeConnections := h'.activeConnections.trans h.activeConnections
  disconnected := h'.disconnected.trans h.disconnected
  keys := h.keys.trans h'.keys id

theorem Moves.trans (h : Moves clears s g sv sv') (h' : Moves clears s g' sv' sv'') :
    Moves clears s (g' ∘ g) sv sv'' where
  core t := by
    rw [h'.core, h.core]
    split_ifs
    · rw [Option.map_map]
    · rfl
  untouched t ht hreg :=
    (h'.untouched t ht fun hreg' => hreg ((h.registered t).1 hreg')).trans (h.untouched t ht hreg)
  sessionsByUser := h'.sessionsByUser.trans h.sessionsByUser
  usersBySession := h'.usersBySession.trans h.usersBySession
  activeConnections := h'.activeConnections.trans h.activeConnections
  disconnected := h'.disconnected.trans h.disconnected
  keys := h.keys.trans h'.keys id

end Moves

end Server

end Ircord

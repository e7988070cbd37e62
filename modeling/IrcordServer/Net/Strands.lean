import IrcordServer.Db.OfflineQueue
import IrcordServer.Net.Invariant
import IrcordServer.Net.Traffic

/-!
# Handlers that overlap

Every session has a strand of its own, and the strands run on several threads.  `handle_chat` and
`handle_auth_response` take the lock of the registry and the lock of the tables one after the other,
and the handlers of other sessions run in between.  Here every locked operation is a step.  A
session whose handler stands between two of them takes no other step on its strand.
-/

open Container

namespace Ircord

/-- Where a handler stands that has released one lock and not yet taken the next. -/
inductive Point
  /-- `handle_chat` has asked `find_session` for the recipient of a direct message. -/
  | routing (recipientId : Str) (raw : Envelope) (found : Option SessionId)
  /-- `handle_auth_response` has returned from `on_session_authenticated`. -/
  | delivering (userId : Str)
  deriving DecidableEq

/-- What became of a direct message. -/
inductive Fate
  /-- It was written to a session, whose core at that moment is kept. -/
  | written (t : SessionId) (core : Option SessionCore)
  | stored (row : Option (ℕ × OfflineMessageRow))
  /-- The sender got an error. -/
  | refused

/-- The server with the handlers under way.  Two fields only record what happened: the direct
messages by their recipients, and the rows that `fetch_and_delete` returned for a user. -/
structure Strands where
  sv : Server
  points : UnorderedMap SessionId Point
  messages : List (Str × Fate)
  returned : List (Str × (ℕ × OfflineMessageRow))

inductive Act
  /-- `handle_chat`, up to `find_session`. -/
  | find (s : SessionId) (chat : ChatEnvelope) (raw : Envelope)
  /-- The rest of `handle_chat`: `send`, or `OfflineStore::save`. -/
  | route (s : SessionId)
  /-- `handle_auth_response` from `// --- Auth success ---` to `on_session_authenticated`. -/
  | authenticate (s : SessionId) (userId : Str)
  /-- The rest of `handle_auth_response`, with `fetch_and_delete`. -/
  | deliver (s : SessionId)
  | disconnect (s : SessionId)
  /-- The function posted by `disconnect`. -/
  | disconnectRuns (s : SessionId)
  /-- `on_session_disconnected`. -/
  | disconnected (s : SessionId)
  | cleanup

structure Move where
  draws : Draws
  act : Act

namespace Strands

variable (codec : Codec) (d : Draws) (st : Strands) (s : SessionId)

/-- No handler is under way, and the messages that are in the table were stored before. -/
def start (sv : Server) : Strands where
  sv := sv
  points := ∅
  messages := sv.db.offlineMessages.rows.map fun r => (r.2.recipientId, .stored (some r))
  returned := []

/-- No handler of the session is under way. -/
def Idle : Prop := st.points.lookup s = none

instance : Decidable (st.Idle s) := inferInstanceAs (Decidable (_ = _))

/-- `handle_chat` takes the message for a direct one. -/
def IsDirect (x : Session) (chat : ChatEnvelope) : Prop :=
  chat.senderId = x.userId ∧ chat.recipientId.isEmpty = false ∧
    chat.recipientId.head? ≠ some (ch '#')

instance (x : Session) (chat : ChatEnvelope) : Decidable (IsDirect x chat) :=
  inferInstanceAs (Decidable (_ ∧ _ ∧ _))

def find (chat : ChatEnvelope) (raw : Envelope) : Strands :=
  match st.sv.sessions[s]? with
  | none => st
  | some x =>
    if st.Idle s ∧ x.state = .established ∧ IsDirect x chat then
      let point : Point := .routing chat.recipientId raw (st.sv.findSession chat.recipientId)
      { st with points := st.points.insert s point }
    else st

def route : Strands :=
  match st.points.lookup s with
  | some (.routing recipientId raw (some t)) =>
    { st with
      sv := st.sv.send t raw
      points := st.points.erase s
      messages := st.messages ++ [(recipientId, .written t (st.sv.core t))] }
  | some (.routing recipientId raw none) =>
    match OfflineStore.save st.sv.db recipientId (codec.envelope.serialize raw) d.nowUnix with
    | (true, db) =>
      { st with
        sv := { st.sv with db := db }
        points := st.points.erase s
        messages := st.messages ++ [(recipientId, .stored db.offlineMessages.rows.getLast?)] }
    | (false, db) =>
      { st with
        sv := { st.sv with db := db }.sendError codec d s 4034 "Recipient offline queue full"
        points := st.points.erase s
        messages := st.messages ++ [(recipientId, .refused)] }
  | _ => st

def authenticate (userId : Str) : Strands :=
  match st.sv.sessions[s]? with
  | none => st
  | some x =>
    if st.Idle s ∧ x.state = .authPending then
      { st with
        sv := (st.sv.enterEstablished codec d s userId).onSessionAuthenticated codec d s userId
        points := st.points.insert s (.delivering userId) }
    else st

def deliver : Strands :=
  match st.points.lookup s with
  | some (.delivering userId) =>
    { st with
      sv := st.sv.startTraffic codec d s userId
      points := st.points.erase s
      returned := st.returned ++
        (OfflineStore.fetchedRows st.sv.db userId d.nowUnix).map fun r => (userId, r) }
  | _ => st

def step (m : Move) : Strands :=
  match m.act with
  | .find s chat raw => st.find s chat raw
  | .route s => st.route codec m.draws s
  | .authenticate s userId => st.authenticate codec m.draws s userId
  | .deliver s => st.deliver codec m.draws s
  | .disconnect s => { st with sv := st.sv.disconnect s }
  | .disconnectRuns s => if st.Idle s then { st with sv := st.sv.onDisconnect s } else st
  | .disconnected s =>
    if st.Idle s then { st with sv := st.sv.onSessionDisconnected codec m.draws s } else st
  | .cleanup =>
    { st with sv := { st.sv with db := OfflineStore.cleanupExpired st.sv.db m.draws.nowUnix } }

/-! ## The steps make up the handlers -/

variable {codec d st s} {x : Session}

/-- The two steps of a direct message, one right after the other, are `handle_chat`. -/
theorem route_find {chat : ChatEnvelope} {raw : Envelope} (hx : st.sv.sessions[s]? = some x)
    (hidle : st.Idle s) (hstate : x.state = .established) (hdirect : IsDirect x chat) :
    ((st.find s chat raw).route codec d s).sv = st.sv.handleChat codec d s x chat raw := by
  obtain ⟨hsender, hrecipient, hchannel⟩ := hdirect
  unfold find
  rw [hx]
  dsimp only
  rw [if_pos ⟨hidle, hstate, hsender, hrecipient, hchannel⟩]
  unfold route Server.handleChat
  rw [if_neg (not_not.2 hsender), if_neg (by simp [hrecipient]), if_neg hchannel]
  rw [AList.lookup_insert]
  cases hfound : st.sv.findSession chat.recipientId with
  | some t => rfl
  | none =>
    dsimp only
    rcases OfflineStore.save st.sv.db chat.recipientId (codec.envelope.serialize raw) d.nowUnix
      with ⟨stored, db⟩
    cases stored <;> rfl

/-- The two steps of a login, one right after the other, are the end of `handle_auth_response`. -/
theorem deliver_authenticate {userId : Str} (hx : st.sv.sessions[s]? = some x)
    (hidle : st.Idle s) (hstate : x.state = .authPending) :
    ((st.authenticate codec d s userId).deliver codec d s).sv =
      Server.establish codec d st.sv s userId := by
  unfold authenticate
  rw [hx]
  dsimp only
  rw [if_pos ⟨hidle, hstate⟩]
  unfold deliver Server.establish
  rw [AList.lookup_insert]

end Strands

end Ircord

import IrcordServer.Net.Fanout
import IrcordServer.Net.Strands

/-!
# Which direct messages arrive

A direct message is written to the session that `find_session` returned, or it is stored for the
next login.  Between the lookup and the rest the recipient may have disconnected, or have logged in
and fetched already: then the message is written to a dead session, or stays in the table of a user
who is online.  `Timely` says of a step that this does not happen, and that no stored message is
evicted or has expired.
-/

open Container Run Sql

namespace Ircord

namespace Server

/-! ## What the locked operations change -/

section Views

variable {codec : Codec} {d : Draws} {sv : Server} {s : SessionId} {userId u : Str}

theorem db_authenticate :
    ((sv.enterEstablished codec d s userId).onSessionAuthenticated codec d s userId).db = sv.db :=
  speaks_db.trans (speaks_db.enterEstablished userId) (speaks_db.onSessionAuthenticated _ userId)

theorem db_startTraffic :
    (sv.startTraffic codec d s userId).db =
      (OfflineStore.fetchAndDelete sv.db userId d.nowUnix).2 := by
  have hpresence (sv : Server) (update : PresenceUpdate) (exclude : Option SessionId) :
      (sv.broadcastPresence codec d update exclude).db = sv.db :=
    speaks_db.broadcastPresence sv update exclude
  unfold startTraffic
  rw [hpresence]
  exact db_deliverOffline userId

theorem db_onSessionDisconnected : (sv.onSessionDisconnected codec d s).db = sv.db :=
  speaks_db.onSessionDisconnected sv s

theorem db_sendError (code : UInt32) (message : String) :
    (sv.sendError codec d s code message).db = sv.db :=
  speaks_db.sendError sv s code message

theorem findSession_register :
    (sv.register s userId).findSession u = if u = userId then some s else sv.findSession u := by
  unfold register
  split
  · exact UnorderedMap.lookup_insert_ite _ _ _ _
  · refine (UnorderedMap.lookup_insert_ite _ _ _ _).trans ?_
    split_ifs with hu
    · rfl
    · exact AList.lookup_erase_ne hu

theorem findSession_authenticate :
    ((sv.enterEstablished codec d s userId).onSessionAuthenticated codec d s userId).findSession u =
      if u = userId then some s else sv.findSession u := by
  have henter := @enterEstablished_moves codec d sv s userId
  unfold onSessionAuthenticated
  dsimp only
  generalize sv.enterEstablished codec d s userId = sv₁ at henter ⊢
  have hsnapshot := @quiet_sendPresenceSnapshot False codec d (sv₁.register s userId) s
    (sv₁.register s userId).onlineUsers
  unfold findSession
  rw [hsnapshot.sessionsByUser]
  have hregister := @findSession_register sv₁ s userId u
  unfold findSession at hregister
  rw [hregister, henter.sessionsByUser]

theorem core_register (t : SessionId) : (sv.register s userId).core t = sv.core t := by
  unfold register
  split
  · rfl
  · exact (@quiet_disconnect False _ _ _ writable_self).core t

theorem any_state_iff {state : SessionState} :
    (sv.sessions[s]?.any fun x => x.state == state) = true ↔
      ∃ c, sv.core s = some c ∧ c.state = state := by
  constructor
  · intro h
    obtain ⟨x, hx, hstate⟩ := found_of_any h
    exact ⟨x.core, core_of_sessions hx, beq_iff_eq.1 hstate⟩
  · rintro ⟨c, hc, hstate⟩
    obtain ⟨x, hx, rfl⟩ := core_eq_some.1 hc
    rw [hx]
    exact beq_iff_eq.2 hstate

theorem mem_onlineUsers {c : SessionCore} (huser : sv.findSession userId = some s)
    (hc : sv.core s = some c) (hstate : c.state = .established) : userId ∈ sv.onlineUsers :=
  List.mem_map.2 ⟨⟨userId, s⟩, List.mem_filter.2 ⟨AList.mem_lookup_iff.1 huser,
    any_state_iff.2 ⟨c, hc, hstate⟩⟩, rfl⟩

theorem core_authenticate (t : SessionId) :
    ((sv.enterEstablished codec d s userId).onSessionAuthenticated codec d s userId).core t =
      if s = t then (sv.core t).map (authenticated userId) else sv.core t := by
  have henter := (@enterEstablished_moves codec d sv s userId).core t
  unfold onSessionAuthenticated
  dsimp only
  rw [(@quiet_sendPresenceSnapshot False _ _ _ _ _).core, core_register, henter]

/-- The registry afterwards holds less than before. -/
theorem findSession_onSessionDisconnected {t : SessionId}
    (h : (sv.onSessionDisconnected codec d s).findSession u = some t) :
    sv.findSession u = some t := by
  unfold findSession at h ⊢
  rw [quiet_unregister_onSessionDisconnected.sessionsByUser] at h
  rcases unregister_cases sv s with ⟨-, e⟩ | ⟨v, -, e⟩
  · rw [e] at h
    exact h
  · rw [e] at h
    have h' : (sv.sessionsByUser.erase v).lookup u = some t := h
    rw [UnorderedMap.lookup_erase_ite] at h'
    split_ifs at h'
    exact h'

theorem core_onSessionDisconnected (t : SessionId) :
    (sv.onSessionDisconnected codec d s).core t = sv.core t := by
  rw [quiet_unregister_onSessionDisconnected.core, core_unregister]

end Views

end Server

namespace Strands

variable {codec : Codec} {d : Draws} {st st' : Strands} {s : SessionId} {u : Str}

/-! ## The property and its condition -/

/-- The stored messages. -/
def rows (st : Strands) : List (ℕ × OfflineMessageRow) := st.sv.db.offlineMessages.rows

/-- A login of the user is about to fetch. -/
def Delivering (st : Strands) (u : Str) : Prop := ∃ s, st.points.lookup s = some (.delivering u)

/-- What is stored for the user will be fetched: it is offline, or a login is about to fetch. -/
def Awaits (st : Strands) (u : Str) : Prop := st.sv.findSession u = none ∨ st.Delivering u

/-- A direct message with this fate is not lost: it was written to an established session of its
recipient, or it was fetched by its recipient or is still stored for it, or the sender knows. -/
def Kept (st : Strands) (u : Str) : Fate → Prop
  | .written _ core => ∃ c, core = some c ∧ c.state = .established ∧ c.userId = u
  | .stored row => ∃ r, row = some r ∧ r.2.recipientId = u ∧ ((u, r) ∈ st.returned ∨ r ∈ st.rows)
  | .refused => True

/-- No direct message is lost, and none is stored for a user who will not fetch it. -/
structure Arrives (st : Strands) : Prop where
  kept : ∀ e ∈ st.messages, st.Kept e.1 e.2
  awaited : ∀ r ∈ st.rows, st.Awaits r.2.recipientId

/-- There is no place for a message of the user: the sender gets an error. -/
def QueueFull (st : Strands) (u : Str) : Prop :=
  OfflineStore.maxMessagesPerUser ≤ OfflineStore.pendingCount st.sv.db u

/-- The session that was found is still established; where none was found, the user still awaits
its messages, and none is evicted.  No stored message expires before it is fetched. -/
def Timely (codec : Codec) (st : Strands) (m : Move) : Prop :=
  match m.act with
  | .route s =>
    match st.points.lookup s with
    | some (.routing _ _ (some t)) => ∃ c, st.sv.core t = some c ∧ c.state = .established
    | some (.routing u raw none) =>
      st.QueueFull u ∨ st.rows.length < OfflineStore.maxTotalMessages ∧
        (codec.envelope.serialize raw = [] ∨ st.Awaits u)
    | _ => True
  | .deliver s =>
    match st.points.lookup s with
    | some (.delivering u) =>
      ∀ r ∈ st.rows, r.2.recipientId = u → m.draws.nowUnix < r.2.expiresAt
    | _ => True
  | .cleanup => ∀ r ∈ st.rows, m.draws.nowUnix < r.2.expiresAt
  | _ => True

/-! ## The invariant -/

/-- The session was authenticated for the user. -/
def Settled (sv : Server) (t : SessionId) (u : Str) : Prop :=
  ∃ c, sv.core t = some c ∧ c.userId = u ∧ (c.state = .established ∨ c.state = .dead)

structure Sound (st : Strands) : Prop where
  registered : ∀ u t, st.sv.findSession u = some t → Settled st.sv t u
  found : ∀ s u raw t, st.points.lookup s = some (.routing u raw (some t)) → Settled st.sv t u
  recorded : ∀ r ∈ st.rows, (r.2.recipientId, Fate.stored (some r)) ∈ st.messages
  returned : ∀ e ∈ st.returned, e.2 ∉ st.rows ∧ e.2.1 ≤ st.sv.db.offlineMessages.seq

theorem Awaits.mono (h : st.Awaits u) (hfind : st.sv.findSession u = none → st'.Awaits u)
    (hdelivering : ∀ s, st.points.lookup s = some (.delivering u) →
      st'.points.lookup s = some (.delivering u)) : st'.Awaits u := by
  rcases h with h | ⟨s, hs⟩
  · exact hfind h
  · exact Or.inr ⟨s, hdelivering s hs⟩

theorem Kept.mono {fate : Fate} (h : st.Kept u fate)
    (hstored : ∀ r, r.2.recipientId = u → (u, r) ∈ st.returned ∨ r ∈ st.rows →
      (u, r) ∈ st'.returned ∨ r ∈ st'.rows) : st'.Kept u fate := by
  cases fate with
  | written t core => exact h
  | refused => trivial
  | stored row =>
    obtain ⟨r, hrow, hrecipient, hr⟩ := h
    exact ⟨r, hrow, hrecipient, hstored r hrecipient hr⟩

/-- A step that leaves the messages and the rows alone. -/
theorem Arrives.of_same (h : st.Arrives) (hmessages : st'.messages = st.messages)
    (hreturned : st'.returned = st.returned) (hrows : st'.rows = st.rows)
    (hawaits : ∀ u, st.Awaits u → st'.Awaits u) : st'.Arrives := by
  refine ⟨?_, ?_⟩
  · rw [hmessages]
    intro e he
    refine (h.kept e he).mono fun r _ hr => ?_
    rwa [hreturned, hrows]
  · rw [hrows]
    exact fun r hr => hawaits _ (h.awaited r hr)

/-- The points of the other sessions stay when a handler of an idle session stops at one. -/
theorem lookup_insert_of_idle (hidle : st.Idle s) (point : Point) {t : SessionId} {q : Point}
    (ht : st.points.lookup t = some q) : (st.points.insert s point).lookup t = some q := by
  rw [UnorderedMap.lookup_insert_ite, if_neg]
  · exact ht
  · rintro rfl
    rw [hidle] at ht
    cases ht

theorem lookup_erase_of_ne {t : SessionId} {p q : Point} (hs : st.points.lookup s = some p)
    (ht : st.points.lookup t = some q) (hne : q ≠ p) : (st.points.erase s).lookup t = some q := by
  rw [UnorderedMap.lookup_erase_ite, if_neg]
  · exact ht
  · rintro rfl
    rw [hs] at ht
    exact hne (Option.some.inj ht).symm

/-! ## Steps that leave the messages alone -/

theorem find_cases (s : SessionId) (chat : ChatEnvelope) (raw : Envelope) :
    st.find s chat raw = st ∨ st.Idle s ∧
      st.find s chat raw = { st with
        points := st.points.insert s
          (.routing chat.recipientId raw (st.sv.findSession chat.recipientId)) } := by
  unfold find
  split
  · exact Or.inl rfl
  · dsimp only
    split_ifs with h
    · exact Or.inr ⟨h.1, rfl⟩
    · exact Or.inl rfl

theorem authenticate_cases (s : SessionId) (userId : Str) :
    st.authenticate codec d s userId = st ∨
      (∃ x, st.sv.sessions[s]? = some x ∧ x.state = .authPending) ∧ st.Idle s ∧
        st.authenticate codec d s userId = { st with
          sv := (st.sv.enterEstablished codec d s userId).onSessionAuthenticated codec d s userId
          points := st.points.insert s (.delivering userId) } := by
  unfold authenticate
  split
  · exact Or.inl rfl
  · rename_i x hx
    split_ifs with h
    · exact Or.inr ⟨⟨x, hx, h.2⟩, h.1, rfl⟩
    · exact Or.inl rfl

theorem arrives_find (h : st.Arrives) (chat : ChatEnvelope) (raw : Envelope) :
    (st.find s chat raw).Arrives := by
  rcases find_cases s chat raw with e | ⟨hidle, e⟩
  · rw [e]
    exact h
  · rw [e]
    refine h.of_same rfl rfl rfl fun u hu => hu.mono Or.inl fun t ht => ?_
    exact lookup_insert_of_idle hidle _ ht

theorem sound_find (h : st.Sound) (chat : ChatEnvelope) (raw : Envelope) :
    (st.find s chat raw).Sound := by
  rcases find_cases s chat raw with e | ⟨hidle, e⟩
  · rw [e]
    exact h
  · rw [e]
    refine ⟨h.registered, fun s' u raw' t ht => ?_, h.recorded, h.returned⟩
    rw [UnorderedMap.lookup_insert_ite] at ht
    split_ifs at ht
    · injection ht with ht
      injection ht with hu _ hfound
      exact h.registered u t (hu ▸ hfound)
    · exact h.found s' u raw' t ht

theorem arrives_authenticate (h : st.Arrives) (userId : Str) :
    (st.authenticate codec d s userId).Arrives := by
  rcases authenticate_cases s userId with e | ⟨-, hidle, e⟩
  · rw [e]
    exact h
  · rw [e]
    refine h.of_same rfl rfl (congrArg (·.offlineMessages.rows) Server.db_authenticate) fun u hu =>
      hu.mono (fun hoffline => ?_) fun t ht => lookup_insert_of_idle hidle _ ht
    by_cases hu : u = userId
    · exact Or.inr ⟨s, by rw [hu]; exact AList.lookup_insert _⟩
    · left
      show Server.findSession _ u = none
      rw [Server.findSession_authenticate, if_neg hu]
      exact hoffline

/-- Sessions that were authenticated stay so. -/
theorem Sound.of_settled (h : st.Sound) (hmessages : st'.messages = st.messages)
    (hreturned : st'.returned = st.returned)
    (hmail : st'.sv.db.offlineMessages = st.sv.db.offlineMessages)
    (hsettled : ∀ t u, Settled st.sv t u → Settled st'.sv t u)
    (hregistered : ∀ u t, st'.sv.findSession u = some t →
      st.sv.findSession u = some t ∨ Settled st'.sv t u)
    (hfound : ∀ s u raw t, st'.points.lookup s = some (.routing u raw (some t)) →
      st.points.lookup s = some (.routing u raw (some t))) : st'.Sound := by
  refine ⟨fun u t ht => ?_, fun s u raw t ht => ?_, ?_, ?_⟩
  · rcases hregistered u t ht with ht | ht
    · exact hsettled t u (h.registered u t ht)
    · exact ht
  · exact hsettled t u (h.found s u raw t (hfound s u raw t ht))
  · unfold rows
    rw [hmail, hmessages]
    exact h.recorded
  · unfold rows
    rw [hmail, hreturned]
    exact h.returned

theorem sound_authenticate (h : st.Sound) (userId : Str) :
    (st.authenticate codec d s userId).Sound := by
  rcases authenticate_cases s userId with e | ⟨⟨x, hx, hstate⟩, hidle, e⟩
  · rw [e]
    exact h
  · rw [e]
    have hcore : st.sv.core s = some x.core := Server.core_of_sessions hx
    refine h.of_settled rfl rfl (congrArg (·.offlineMessages) Server.db_authenticate)
      (fun t u ht => ?_) (fun u t ht => ?_) fun s' u raw t ht => ?_
    · obtain ⟨c, hc, huser, hsettled⟩ := ht
      refine ⟨c, ?_, huser, hsettled⟩
      rw [Server.core_authenticate, if_neg, hc]
      -- the session that logs in was not settled
      rintro rfl
      rw [hcore] at hc
      cases hc
      have hpending : x.core.state = .authPending := hstate
      rw [hpending] at hsettled
      rcases hsettled with h | h <;> cases h
    · dsimp only at ht
      rw [Server.findSession_authenticate] at ht
      split_ifs at ht with hu
      · cases ht
        right
        refine ⟨Server.authenticated userId x.core, ?_, hu.symm, Or.inl rfl⟩
        rw [Server.core_authenticate, if_pos rfl, hcore, Option.map_some]
      · exact Or.inl ht
    · dsimp only at ht
      rw [UnorderedMap.lookup_insert_ite] at ht
      split_ifs at ht
      · cases ht
      · exact ht

/-- The function posted by `disconnect` ends the session and nothing else. -/
theorem sound_onDisconnect (h : st.Sound) : { st with sv := st.sv.onDisconnect s }.Sound := by
  refine h.of_settled rfl rfl rfl (fun t u ht => ?_) (fun u t ht => Or.inl ht)
    fun s' u raw t ht => ht
  obtain ⟨c, hc, huser, hsettled⟩ := ht
  have hcore := @Server.core_modify st.sv s t
    (fun x => { x with disconnects := x.disconnects - 1, state := .dead, timer := none,
                       socketOpen := false })
    (fun c => { c with state := .dead, socketOpen := false }) fun _ => rfl
  rw [hc, Option.map_some] at hcore
  by_cases hst : s = t
  · exact ⟨_, hcore.trans (if_pos hst), huser, Or.inr rfl⟩
  · exact ⟨c, hcore.trans (if_neg hst), huser, hsettled⟩

theorem sound_disconnect (h : st.Sound) : { st with sv := st.sv.disconnect s }.Sound := by
  have hquiet : Server.Quiet False (some s) st.sv (st.sv.disconnect s) :=
    Server.quiet_disconnect Server.writable_self
  refine h.of_settled rfl rfl rfl (fun t u ht => ?_) (fun u t ht => Or.inl ht)
    fun s' u raw t ht => ht
  obtain ⟨c, hc, hrest⟩ := ht
  exact ⟨c, (hquiet.core t).trans hc, hrest⟩

theorem sound_disconnected (h : st.Sound) :
    { st with sv := st.sv.onSessionDisconnected codec d s }.Sound := by
  refine h.of_settled rfl rfl (congrArg (·.offlineMessages) Server.db_onSessionDisconnected)
    (fun t u ht => ?_)
    (fun u t ht => Or.inl (Server.findSession_onSessionDisconnected ht)) fun s' u raw t ht => ht
  obtain ⟨c, hc, hrest⟩ := ht
  exact ⟨c, (Server.core_onSessionDisconnected t).trans hc, hrest⟩

theorem arrives_disconnected (h : st.Arrives) :
    { st with sv := st.sv.onSessionDisconnected codec d s }.Arrives := by
  refine h.of_same rfl rfl (congrArg (·.offlineMessages.rows) Server.db_onSessionDisconnected)
    fun u hu => hu.mono (fun hoffline => Or.inl ?_) fun t ht => ht
  cases hfind : (st.sv.onSessionDisconnected codec d s).findSession u with
  | none => rfl
  | some t =>
    rw [Server.findSession_onSessionDisconnected hfind] at hoffline
    cases hoffline

/-! ## Routing -/

/-- What `route` does besides the tables. -/
structure Routed (st st' : Strands) (s : SessionId) (u : Str) (fate : Fate) : Prop where
  points : st'.points = st.points.erase s
  messages : st'.messages = st.messages ++ [(u, fate)]
  returned : st'.returned = st.returned
  findSession : ∀ v, st'.sv.findSession v = st.sv.findSession v
  core : ∀ t, st'.sv.core t = st.sv.core t

variable {raw : Envelope} {t : SessionId} {fate : Fate}

theorem route_found (hpoint : st.points.lookup s = some (.routing u raw (some t))) :
    Routed st (st.route codec d s) s u (.written t (st.sv.core t)) ∧
      (st.route codec d s).sv.db = st.sv.db := by
  have hquiet : Server.Quiet False (some t) st.sv (st.sv.send t raw) :=
    Server.quiet_send Server.writable_self raw
  unfold route
  rw [hpoint]
  exact ⟨⟨rfl, rfl, rfl, fun _ => rfl, hquiet.core⟩, rfl⟩

/-- The three ways in which storing a message can end. -/
theorem route_none (hpoint : st.points.lookup s = some (.routing u raw none)) :
    let st' := st.route codec d s
    let mail := (OfflineStore.makeRoom st.sv.db).offlineMessages
    st.QueueFull u ∧ Routed st st' s u .refused ∧
        st'.sv.db.offlineMessages = st.sv.db.offlineMessages ∨
      ¬ st.QueueFull u ∧ codec.envelope.serialize raw = [] ∧ Routed st st' s u .refused ∧
        st'.sv.db.offlineMessages = mail ∨
      ¬ st.QueueFull u ∧ codec.envelope.serialize raw ≠ [] ∧
        ∃ row : OfflineMessageRow, row.recipientId = u ∧
          Routed st st' s u (.stored (some (mail.seq + 1, row))) ∧
          st'.sv.db.offlineMessages = mail.insert row := by
  have hrefused (db : Database) (sv : Server)
      (hsv : sv = { st.sv with db := db }.sendError codec d s 4034
        "Recipient offline queue full") :
      Routed st { st with sv := sv, points := st.points.erase s,
                          messages := st.messages ++ [(u, .refused)] } s u .refused ∧
        sv.db = db := by
    have hquiet := @Server.quiet_sendError False codec d { st.sv with db := db } s 4034
      "Recipient offline queue full"
    rw [hsv]
    refine ⟨⟨rfl, rfl, rfl, fun v => ?_, hquiet.core⟩, Server.db_sendError _ _⟩
    unfold Server.findSession
    rw [hquiet.sessionsByUser]
  dsimp only
  unfold route
  rw [hpoint]
  dsimp only
  by_cases hfull : st.QueueFull u
  · rw [OfflineStore.save_of_full _ _ _ hfull]
    obtain ⟨hrouted, hdb⟩ := hrefused st.sv.db _ rfl
    exact Or.inl ⟨hfull, hrouted, congrArg (·.offlineMessages) hdb⟩
  · rw [OfflineStore.save_of_room _ _ _ (not_le.1 hfull)]
    refine Or.inr ?_
    by_cases hempty : codec.envelope.serialize raw = []
    · rw [hempty]
      obtain ⟨hrouted, hdb⟩ := hrefused (OfflineStore.makeRoom st.sv.db) _ rfl
      exact Or.inl ⟨hfull, rfl, hrouted, congrArg (·.offlineMessages) hdb⟩
    · rw [bindBlob_of_ne_nil hempty]
      refine Or.inr ⟨hfull, hempty, _, rfl, ⟨rfl, ?_, rfl, fun _ => rfl, fun _ => rfl⟩, rfl⟩
      show st.messages ++ [(u, Fate.stored (List.getLast? (_ ++ [_])))] = _
      rw [List.getLast?_concat]

theorem Routed.awaits_iff {found : Option SessionId} (h : Routed st st' s u fate)
    (hpoint : st.points.lookup s = some (.routing u raw found)) {v : Str} :
    st'.Awaits v ↔ st.Awaits v := by
  unfold Awaits Delivering
  rw [h.findSession, h.points]
  refine or_congr_right (exists_congr fun t => ?_)
  constructor
  · intro ht
    rw [UnorderedMap.lookup_erase_ite] at ht
    split_ifs at ht
    exact ht
  · exact fun ht => lookup_erase_of_ne hpoint ht (by simp)

/-- A routed message is not lost if its fate is a good one and no other message is evicted. -/
theorem Routed.arrives_iff {found : Option SessionId} (h : Routed st st' s u fate)
    (hpoint : st.points.lookup s = some (.routing u raw found)) (harrives : st.Arrives)
    (hrows : ∀ r ∈ st.rows, r ∈ st'.rows) :
    st'.Arrives ↔ st'.Kept u fate ∧ ∀ r ∈ st'.rows, r ∉ st.rows → st'.Awaits r.2.recipientId := by
  constructor
  · intro h'
    refine ⟨h'.kept (u, fate) ?_, fun r hr _ => h'.awaited r hr⟩
    rw [h.messages]
    exact List.mem_append_right _ (List.mem_singleton_self _)
  · rintro ⟨hkept, hnew⟩
    refine ⟨fun e he => ?_, fun r hr => ?_⟩
    · rw [h.messages] at he
      rcases List.mem_append.1 he with he | he
      · refine (harrives.kept e he).mono fun r _ hr => ?_
        rw [h.returned]
        exact hr.imp id (hrows r)
      · rw [List.mem_singleton.1 he]
        exact hkept
    · by_cases hold : r ∈ st.rows
      · exact (h.awaits_iff hpoint).2 (harrives.awaited r hold)
      · exact hnew r hr hold

/-- A message whose row disappears without being fetched is lost. -/
theorem Sound.not_arrives (hsound : st.Sound) {r : ℕ × OfflineMessageRow} (hr : r ∈ st.rows)
    (hmessages : st.messages ⊆ st'.messages) (hreturned : (r.2.recipientId, r) ∉ st'.returned)
    (hgone : r ∉ st'.rows) : ¬ st'.Arrives := by
  intro h'
  obtain ⟨r', hrow, -, hr'⟩ := h'.kept _ (hmessages (hsound.recorded r hr))
  cases hrow
  exact hr'.elim hreturned hgone

theorem Routed.sound (h : Routed st st' s u fate) (hsound : st.Sound)
    (hrows : ∀ r ∈ st'.rows, r ∈ st.rows ∨ r.1 = st.sv.db.offlineMessages.seq + 1 ∧
      r.2.recipientId = u ∧ fate = .stored (some r))
    (hseq : st.sv.db.offlineMessages.seq ≤ st'.sv.db.offlineMessages.seq) : st'.Sound := by
  have hsettled {t : SessionId} {v : Str} (ht : Settled st.sv t v) : Settled st'.sv t v := by
    unfold Settled
    rw [h.core]
    exact ht
  refine ⟨fun v t ht => ?_, fun s' v raw' t ht => ?_, fun r hr => ?_, fun e he => ?_⟩
  · rw [h.findSession] at ht
    exact hsettled (hsound.registered v t ht)
  · rw [h.points, UnorderedMap.lookup_erase_ite] at ht
    split_ifs at ht
    exact hsettled (hsound.found s' v raw' t ht)
  · rw [h.messages]
    rcases hrows r hr with hr | ⟨-, hrecipient, hfate⟩
    · exact List.mem_append_left _ (hsound.recorded r hr)
    · rw [hrecipient, hfate]
      exact List.mem_append_right _ (List.mem_singleton_self _)
  · rw [h.returned] at he
    obtain ⟨hgone, hle⟩ := hsound.returned e he
    refine ⟨fun hmem => ?_, hle.trans hseq⟩
    rcases hrows e.2 hmem with hmem | ⟨hid, -, -⟩
    · exact hgone hmem
    · omega

/-- A row that was evicted is a message that was lost. -/
theorem Routed.not_arrives (h : Routed st st' s u fate) (hsound : st.Sound)
    {r : ℕ × OfflineMessageRow} (hr : r ∈ st.rows) (hgone : r ∉ st'.rows) : ¬ st'.Arrives := by
  refine hsound.not_arrives hr ?_ (fun hmem => ?_) hgone
  · rw [h.messages]
    exact List.subset_append_left _ _
  · rw [h.returned] at hmem
    exact (hsound.returned _ hmem).1 hr

theorem rows_of_mail {mail : Table OfflineMessageRow} (h : st.sv.db.offlineMessages = mail) :
    st.rows = mail.rows := by
  rw [rows, h]

theorem not_mem_rows_of_lt {r : ℕ × OfflineMessageRow} (h : st.sv.db.offlineMessages.seq < r.1) :
    r ∉ st.rows :=
  fun hr => absurd (st.sv.db.offlineMessages.le_seq r hr) (not_le.2 h)

/-- Making room removes nothing, or a row that was there. -/
theorem makeRoom_rows (st : Strands) :
    st.rows.length < OfflineStore.maxTotalMessages ∧
        (OfflineStore.makeRoom st.sv.db).offlineMessages.rows = st.rows ∨
      OfflineStore.maxTotalMessages ≤ st.rows.length ∧
        ∃ oldest ∈ st.rows, oldest ∉ (OfflineStore.makeRoom st.sv.db).offlineMessages.rows := by
  have hsorted := st.sv.db.offlineMessages.sorted
  rcases OfflineStore.makeRoom_cases st.sv.db with ⟨hlt, hsame⟩ | ⟨hge, oldest, hcons⟩
  · exact Or.inl ⟨hlt, hsame⟩
  · refine Or.inr ⟨hge, oldest, ?_, fun hmem => ?_⟩
    · rw [rows, hcons]
      exact List.mem_cons_self
    · rw [hcons] at hsorted
      exact absurd ((List.pairwise_cons.1 hsorted).1 oldest hmem) (lt_irrefl _)

/-- What was found is written to; it arrives if the session is still established. -/
theorem arrives_route_found_iff (hsound : st.Sound) (h : st.Arrives)
    (hpoint : st.points.lookup s = some (.routing u raw (some t))) :
    (st.route codec d s).Arrives ↔ ∃ c, st.sv.core t = some c ∧ c.state = .established := by
  obtain ⟨hrouted, hdb⟩ := @route_found codec d st s u raw t hpoint
  have hrows : (st.route codec d s).rows = st.rows := by rw [rows, hdb, rows]
  rw [hrouted.arrives_iff hpoint h fun r hr => hrows ▸ hr]
  obtain ⟨c, hc, huser, -⟩ := hsound.found s u raw t hpoint
  constructor
  · rintro ⟨⟨c', hc', hstate, -⟩, -⟩
    exact ⟨c', hc', hstate⟩
  · rintro ⟨c', hc', hstate⟩
    rw [hc] at hc'
    cases hc'
    exact ⟨⟨c, hc, hstate, huser⟩, fun r hr hnot => absurd (hrows ▸ hr) hnot⟩

/-- Where nothing was found, the message is stored; it arrives if a login is still to come. -/
theorem arrives_route_none_iff (hsound : st.Sound) (h : st.Arrives)
    (hpoint : st.points.lookup s = some (.routing u raw none)) :
    (st.route codec d s).Arrives ↔
      st.QueueFull u ∨ st.rows.length < OfflineStore.maxTotalMessages ∧
        (codec.envelope.serialize raw = [] ∨ st.Awaits u) := by
  have hseq := OfflineStore.seq_makeRoom st.sv.db
  have hroom := makeRoom_rows st
  rcases @route_none codec d st s u raw hpoint with
    ⟨hfull, hrouted, hmail⟩ | ⟨hfull, hempty, hrouted, hmail⟩ |
      ⟨hfull, hpayload, row, hrow, hrouted, hmail⟩
  · have hrows : (st.route codec d s).rows = st.rows := rows_of_mail hmail
    rw [hrouted.arrives_iff hpoint h fun r hr => hrows ▸ hr]
    refine iff_of_true ⟨trivial, fun r hr hnot => absurd (hrows ▸ hr) hnot⟩ (Or.inl hfull)
  · have hrows := rows_of_mail hmail
    rcases hroom with ⟨hlt, hsame⟩ | ⟨hge, oldest, hold, hevicted⟩
    · rw [hsame] at hrows
      rw [hrouted.arrives_iff hpoint h fun r hr => hrows ▸ hr]
      refine iff_of_true ⟨trivial, fun r hr hnot => absurd (hrows ▸ hr) hnot⟩
        (Or.inr ⟨hlt, Or.inl hempty⟩)
    · rw [← hrows] at hevicted
      refine iff_of_false (hrouted.not_arrives hsound hold hevicted) ?_
      rintro (h | h)
      · exact hfull h
      · exact absurd h.1 (not_lt.2 hge)
  · have hnew (r : ℕ × OfflineMessageRow) : r ∈ (st.route codec d s).rows ↔
        r ∈ (OfflineStore.makeRoom st.sv.db).offlineMessages.rows ∨
          r = (st.sv.db.offlineMessages.seq + 1, row) := by
      rw [rows_of_mail hmail, Table.mem_insert, hseq]
    rcases hroom with ⟨hlt, hsame⟩ | ⟨hge, oldest, hold, hevicted⟩
    · rw [hsame] at hnew
      rw [hrouted.arrives_iff hpoint h fun r hr => (hnew r).2 (Or.inl hr)]
      constructor
      · rintro ⟨-, hawaits⟩
        refine Or.inr ⟨hlt, Or.inr ?_⟩
        have hmem := (hnew (st.sv.db.offlineMessages.seq + 1, row)).2 (Or.inr rfl)
        have := hawaits _ hmem (not_mem_rows_of_lt (Nat.lt_succ_self _))
        rw [hrow] at this
        exact (hrouted.awaits_iff hpoint).1 this
      · rintro (h | ⟨-, h | h⟩)
        · exact absurd h hfull
        · exact absurd h hpayload
        · refine ⟨⟨_, rfl, hrow, Or.inr ((hnew _).2 (Or.inr (by rw [hseq])))⟩, ?_⟩
          intro r hr hnot
          rw [((hnew r).1 hr).resolve_left hnot, hrow]
          exact (hrouted.awaits_iff hpoint).2 h
    · have hgone : oldest ∉ (st.route codec d s).rows := by
        rw [hnew]
        rintro (hmem | rfl)
        · exact hevicted hmem
        · exact not_mem_rows_of_lt (Nat.lt_succ_self _) hold
      refine iff_of_false (hrouted.not_arrives hsound hold hgone) ?_
      rintro (h | h)
      · exact hfull h
      · exact absurd h.1 (not_lt.2 hge)

/-- Routing loses no message exactly if it is timely. -/
theorem arrives_route_iff (hsound : st.Sound) (h : st.Arrives) :
    (st.route codec d s).Arrives ↔ Timely codec st ⟨d, .route s⟩ := by
  unfold Timely
  dsimp only
  cases hpoint : st.points.lookup s with
  | none =>
    have hsame : st.route codec d s = st := by rw [route, hpoint]
    rw [hsame]
    exact iff_of_true h trivial
  | some point =>
    cases point with
    | delivering v =>
      have hsame : st.route codec d s = st := by rw [route, hpoint]
      rw [hsame]
      exact iff_of_true h trivial
    | routing u raw found =>
      cases found with
      | some t => exact arrives_route_found_iff hsound h hpoint
      | none => exact arrives_route_none_iff hsound h hpoint

theorem sound_route (hsound : st.Sound) : (st.route codec d s).Sound := by
  cases hpoint : st.points.lookup s with
  | none =>
    have hsame : st.route codec d s = st := by rw [route, hpoint]
    rw [hsame]
    exact hsound
  | some point =>
    cases point with
    | delivering v =>
      have hsame : st.route codec d s = st := by rw [route, hpoint]
      rw [hsame]
      exact hsound
    | routing u raw found =>
      cases found with
      | some t =>
        obtain ⟨hrouted, hdb⟩ := @route_found codec d st s u raw t hpoint
        have hrows : (st.route codec d s).rows = st.rows := by rw [rows, hdb, rows]
        exact hrouted.sound hsound (fun r hr => Or.inl (hrows ▸ hr)) (by rw [hdb])
      | none =>
        have hseq := OfflineStore.seq_makeRoom st.sv.db
        have hmade : (OfflineStore.makeRoom st.sv.db).offlineMessages.rows ⊆ st.rows := by
          rcases OfflineStore.makeRoom_cases st.sv.db with ⟨-, h⟩ | ⟨-, oldest, h⟩
          · rw [h]
            exact fun r hr => hr
          · rw [rows, h]
            exact List.subset_cons_self _ _
        rcases @route_none codec d st s u raw hpoint with
          ⟨-, hrouted, hmail⟩ | ⟨-, -, hrouted, hmail⟩ | ⟨-, -, row, hrow, hrouted, hmail⟩
        · have hrows : (st.route codec d s).rows = st.rows := rows_of_mail hmail
          exact hrouted.sound hsound (fun r hr => Or.inl (hrows ▸ hr)) (by rw [hmail])
        · have hrows := rows_of_mail hmail
          exact hrouted.sound hsound (fun r hr => Or.inl (hmade (hrows ▸ hr))) (by rw [hmail, hseq])
        · refine hrouted.sound hsound (fun r hr => ?_) ?_
          · rw [rows_of_mail hmail] at hr
            rcases Table.mem_insert.1 hr with hr | rfl
            · exact Or.inl (hmade hr)
            · exact Or.inr ⟨congrArg (· + 1) hseq, hrow, rfl⟩
          · rw [hmail]
            show _ ≤ (OfflineStore.makeRoom st.sv.db).offlineMessages.seq + 1
            omega

/-! ## Fetching and cleaning up -/

theorem deliver_of_point (hpoint : st.points.lookup s = some (.delivering u)) :
    let st' := st.deliver codec d s
    st'.points = st.points.erase s ∧ st'.messages = st.messages ∧
      st'.returned = st.returned ++
        (OfflineStore.fetchedRows st.sv.db u d.nowUnix).map (fun r => (u, r)) ∧
      (∀ v, st'.sv.findSession v = st.sv.findSession v) ∧ (∀ t, st'.sv.core t = st.sv.core t) ∧
      st'.sv.db = (OfflineStore.fetchAndDelete st.sv.db u d.nowUnix).2 := by
  have hquiet := @Server.quiet_startTraffic codec d st.sv s u
  have hfind (v : Str) : (st.sv.startTraffic codec d s u).findSession v = st.sv.findSession v := by
    unfold Server.findSession
    rw [hquiet.sessionsByUser]
  dsimp only
  unfold deliver
  rw [hpoint]
  exact ⟨rfl, rfl, rfl, hfind, hquiet.core, Server.db_startTraffic⟩

theorem mem_rows_fetched {sv : Server} {r : ℕ × OfflineMessageRow}
    (hdb : sv.db = (OfflineStore.fetchAndDelete st.sv.db u d.nowUnix).2) :
    r ∈ sv.db.offlineMessages.rows ↔ r ∈ st.rows ∧ r.2.recipientId ≠ u := by
  rw [hdb]
  refine Table.mem_retain.trans (and_congr_right fun _ => ?_)
  rw [Bool.not_eq_true', beq_eq_false_iff_ne]

theorem mem_fetchedRows {nowUnix : ℤ} {r : ℕ × OfflineMessageRow} :
    r ∈ OfflineStore.fetchedRows st.sv.db u nowUnix ↔
      r ∈ st.rows ∧ r.2.recipientId = u ∧ nowUnix < r.2.expiresAt := by
  refine List.mem_filter.trans (and_congr_right fun _ => ?_)
  rw [Bool.and_eq_true, beq_iff_eq, decide_eq_true_eq]

/-- A login loses no message exactly if none of the user has expired. -/
theorem arrives_deliver_iff (hsound : st.Sound) (h : st.Arrives) :
    (st.deliver codec d s).Arrives ↔ Timely codec st ⟨d, .deliver s⟩ := by
  have hnothing (hsame : st.deliver codec d s = st) :
      (st.deliver codec d s).Arrives ↔ True := iff_of_true (hsame.symm ▸ h) trivial
  unfold Timely
  dsimp only
  cases hpoint : st.points.lookup s with
  | none => exact hnothing (by rw [deliver, hpoint])
  | some point =>
    cases point with
    | routing v raw found => exact hnothing (by rw [deliver, hpoint])
    | delivering u =>
      obtain ⟨hpoints, hmessages, hreturned, hfind, -, hdb⟩ :=
        @deliver_of_point codec d st s u hpoint
      have hrows (r : ℕ × OfflineMessageRow) :
          r ∈ (st.deliver codec d s).rows ↔ r ∈ st.rows ∧ r.2.recipientId ≠ u :=
        mem_rows_fetched hdb
      have hnew (r : ℕ × OfflineMessageRow) :
          (u, r) ∈ (OfflineStore.fetchedRows st.sv.db u d.nowUnix).map (fun r => (u, r)) ↔
            r ∈ st.rows ∧ r.2.recipientId = u ∧ d.nowUnix < r.2.expiresAt := by
        rw [List.mem_map]
        constructor
        · rintro ⟨r', hr', e⟩
          cases e
          exact mem_fetchedRows.1 hr'
        · exact fun hr => ⟨r, mem_fetchedRows.2 hr, rfl⟩
      dsimp only
      constructor
      · intro h' r hr hu
        by_contra hexpired
        refine hsound.not_arrives hr ?_ ?_ ?_ h'
        · rw [hmessages]
          exact List.Subset.refl _
        · rw [hreturned, hu]
          intro hmem
          rcases List.mem_append.1 hmem with hmem | hmem
          · exact (hsound.returned _ hmem).1 hr
          · exact hexpired ((hnew r).1 hmem).2.2
        · rw [hrows]
          exact fun hmem => hmem.2 hu
      · intro htimely
        refine ⟨fun e he => ?_, fun r hr => ?_⟩
        · rw [hmessages] at he
          refine (h.kept e he).mono fun r hrecipient hr => ?_
          rw [hreturned, hrows, List.mem_append]
          rcases hr with hr | hr
          · exact Or.inl (Or.inl hr)
          · by_cases hu : r.2.recipientId = u
            · have hsame : e.1 = u := hrecipient.symm.trans hu
              rw [hsame]
              exact Or.inl (Or.inr ((hnew r).2 ⟨hr, hu, htimely r hr hu⟩))
            · exact Or.inr ⟨hr, hu⟩
        · obtain ⟨hold, hu⟩ := (hrows r).1 hr
          refine (h.awaited r hold).mono (fun hoffline => Or.inl ((hfind _).trans hoffline))
            fun t ht => ?_
          rw [hpoints]
          refine lookup_erase_of_ne hpoint ht fun e => hu ?_
          injection e

theorem sound_deliver (hsound : st.Sound) : (st.deliver codec d s).Sound := by
  cases hpoint : st.points.lookup s with
  | none =>
    have hsame : st.deliver codec d s = st := by rw [deliver, hpoint]
    rw [hsame]
    exact hsound
  | some point =>
    cases point with
    | routing v raw found =>
      have hsame : st.deliver codec d s = st := by rw [deliver, hpoint]
      rw [hsame]
      exact hsound
    | delivering u =>
      obtain ⟨hpoints, hmessages, hreturned, hfind, hcore, hdb⟩ :=
        @deliver_of_point codec d st s u hpoint
      have hrows (r : ℕ × OfflineMessageRow) :
          r ∈ (st.deliver codec d s).rows ↔ r ∈ st.rows ∧ r.2.recipientId ≠ u :=
        mem_rows_fetched hdb
      have hsettled {t : SessionId} {v : Str} (ht : Settled st.sv t v) :
          Settled (st.deliver codec d s).sv t v := by
        unfold Settled
        rw [hcore]
        exact ht
      refine ⟨fun v t ht => ?_, fun s' v raw t ht => ?_, fun r hr => ?_, fun e he => ?_⟩
      · rw [hfind] at ht
        exact hsettled (hsound.registered v t ht)
      · rw [hpoints, UnorderedMap.lookup_erase_ite] at ht
        split_ifs at ht
        exact hsettled (hsound.found s' v raw t ht)
      · rw [hmessages]
        exact hsound.recorded r ((hrows r).1 hr).1
      · have hseq : (st.deliver codec d s).sv.db.offlineMessages.seq =
            st.sv.db.offlineMessages.seq := by rw [hdb]; rfl
        rw [hrows, hseq]
        rw [hreturned] at he
        rcases List.mem_append.1 he with he | he
        · obtain ⟨hgone, hle⟩ := hsound.returned e he
          exact ⟨fun hmem => hgone hmem.1, hle⟩
        · obtain ⟨r, hr, rfl⟩ := List.mem_map.1 he
          obtain ⟨hmem, hu, -⟩ := mem_fetchedRows.1 hr
          exact ⟨fun h => h.2 hu, st.sv.db.offlineMessages.le_seq r hmem⟩

/-- The tables after the cleanup timer. -/
def cleaned (st : Strands) (nowUnix : ℤ) : Strands :=
  { st with sv := { st.sv with db := OfflineStore.cleanupExpired st.sv.db nowUnix } }

theorem mem_rows_cleaned {nowUnix : ℤ} {r : ℕ × OfflineMessageRow} :
    r ∈ (st.cleaned nowUnix).rows ↔ r ∈ st.rows ∧ nowUnix < r.2.expiresAt := by
  refine Table.mem_retain.trans (and_congr_right fun _ => ?_)
  rw [Bool.not_eq_true', decide_eq_false_iff_not, not_le]

theorem arrives_cleaned_iff (hsound : st.Sound) (h : st.Arrives) (nowUnix : ℤ) :
    (st.cleaned nowUnix).Arrives ↔ ∀ r ∈ st.rows, nowUnix < r.2.expiresAt := by
  constructor
  · intro h' r hr
    by_contra hexpired
    have hgone : r ∉ (st.cleaned nowUnix).rows := fun hmem =>
      hexpired (mem_rows_cleaned.1 hmem).2
    have hreturned : (r.2.recipientId, r) ∉ (st.cleaned nowUnix).returned := fun hmem =>
      (hsound.returned _ hmem).1 hr
    have hlost : ¬ (st.cleaned nowUnix).Arrives :=
      hsound.not_arrives hr (List.Subset.refl _) hreturned hgone
    exact hlost h'
  · intro hfresh
    refine ⟨fun e he => (h.kept e he).mono fun r _ hr => hr.imp id fun hmem => ?_, fun r hr => ?_⟩
    · exact mem_rows_cleaned.2 ⟨hmem, hfresh r hmem⟩
    · exact h.awaited r (mem_rows_cleaned.1 hr).1

theorem sound_cleaned (hsound : st.Sound) (nowUnix : ℤ) : (st.cleaned nowUnix).Sound :=
  ⟨hsound.registered, hsound.found, fun r hr => hsound.recorded r (mem_rows_cleaned.1 hr).1,
    fun e he => ⟨fun hmem => (hsound.returned e he).1 (mem_rows_cleaned.1 hmem).1,
      (hsound.returned e he).2⟩⟩

/-! ## Runs -/

theorem sound_step (hsound : st.Sound) (m : Move) : (st.step codec m).Sound := by
  obtain ⟨d, act⟩ := m
  cases act with
  | find s chat raw => exact sound_find hsound chat raw
  | route s => exact sound_route hsound
  | authenticate s userId => exact sound_authenticate hsound userId
  | deliver s => exact sound_deliver hsound
  | disconnect s => exact sound_disconnect hsound
  | disconnectRuns s =>
    show Sound (if _ then _ else _)
    split_ifs
    · exact sound_onDisconnect hsound
    · exact hsound
  | disconnected s =>
    show Sound (if _ then _ else _)
    split_ifs
    · exact sound_disconnected hsound
    · exact hsound
  | cleanup => exact sound_cleaned hsound d.nowUnix

theorem arrives_step_iff (hsound : st.Sound) (h : st.Arrives) (m : Move) :
    (st.step codec m).Arrives ↔ Timely codec st m := by
  obtain ⟨d, act⟩ := m
  cases act with
  | find s chat raw => exact iff_of_true (arrives_find h chat raw) trivial
  | route s => exact arrives_route_iff hsound h
  | authenticate s userId => exact iff_of_true (arrives_authenticate h userId) trivial
  | deliver s => exact arrives_deliver_iff hsound h
  | disconnect s => exact iff_of_true (h.of_same rfl rfl rfl fun u hu => hu) trivial
  | disconnectRuns s =>
    refine iff_of_true ?_ trivial
    show Arrives (if _ then _ else _)
    split_ifs
    · exact h.of_same rfl rfl rfl fun u hu => hu
    · exact h
  | disconnected s =>
    refine iff_of_true ?_ trivial
    show Arrives (if _ then _ else _)
    split_ifs
    · exact arrives_disconnected h
    · exact h
  | cleanup => exact arrives_cleaned_iff hsound h d.nowUnix

theorem sound_start {sv : Server} (h : Server.WellFormed sv) : (start sv).Sound := by
  refine ⟨fun u t ht => h.registered t u ((h.registry u t).1 ht), fun s u raw t ht => ?_,
    fun r hr => ?_, fun e he => absurd he List.not_mem_nil⟩
  · cases ht
  · exact List.mem_map.2 ⟨r, hr, rfl⟩

/-- From any server in which nothing is stored for a user who is online, the runs in which no direct
message is ever lost are the runs whose steps are all timely. -/
theorem messages_arrive_iff (codec : Codec) (sv : Server) (hsv : Server.WellFormed sv)
    (hoffline : ∀ r ∈ sv.db.offlineMessages.rows, sv.findSession r.2.recipientId = none)
    (ms : List Move) :
    AllStates (step codec) Arrives (start sv) ms ↔
      AllSteps (step codec) (Timely codec) (start sv) ms := by
  have hstart : (start sv).Arrives := by
    refine ⟨fun e he => ?_, fun r hr => Or.inl (hoffline r hr)⟩
    obtain ⟨r, hr, rfl⟩ := List.mem_map.1 he
    exact ⟨r, rfl, rfl, Or.inr hr⟩
  exact allStates_iff_of_invariant (sound_start hsv) (fun st m h => sound_step h m) hstart
    fun _ m hsound harrives => arrives_step_iff hsound harrives m

/-! ## Two messages that are lost -/

/-- `alice` is online, and `bob` has connected and is about to log in. -/
def bobConnects : List Input :=
  (loginEvents 0 (str "alice") Server.aliceSignature ++
    [Event.accept (str "127.0.0.1"), Event.handshakeDone 1 true] ++
    frameEvents 1 .hello (Codec.proto3.hello.serialize ⟨1, []⟩)).map Event.atZero

def aliceOnline : Server :=
  final (Server.step .proto3 Server.aliceBobCrypto) (.start ⟨10, 10, 10, []⟩ .empty) bobConnects

def Act.atZero (act : Act) : Move := ⟨(Event.acceptError.atZero).draws, act⟩

/-- `alice` writes to `bob`. -/
def aliceToBob : Act :=
  .find 0 ⟨str "alice", str "bob"⟩ ⟨0, 0, .chatEnvelope,
    Codec.proto3.chatEnvelope.serialize ⟨str "alice", str "bob"⟩⟩

/-- `bob` is not found; he logs in and fetches before the message is stored. -/
def strandedMoves : List Move :=
  [aliceToBob, .authenticate 1 (str "bob"), .deliver 1, .route 0].map Act.atZero

/-- `bob` is found; his session ends before the message is written to it. -/
def deadMoves : List Move :=
  [.authenticate 1 (str "bob"), .deliver 1, aliceToBob, .disconnect 1, .disconnectRuns 1,
    .route 0].map Act.atZero

/-- The message was written to a session that was not established. -/
def missed : Fate → Bool
  | .written _ core => !core.any fun c => c.state == .established
  | _ => false

/-- In both orders all handlers have finished and the sender got no error, but one message stays in
the table of `bob`, who is online, and the other was written to a dead session. -/
theorem not_arrives_stranded_dead :
    ((final (step .proto3) (start aliceOnline) strandedMoves).points.keys = [] ∧
        ¬ (final (step .proto3) (start aliceOnline) strandedMoves).Arrives) ∧
      (final (step .proto3) (start aliceOnline) deadMoves).points.keys = [] ∧
        ¬ (final (step .proto3) (start aliceOnline) deadMoves).Arrives := by
  have hpoints : (final (step .proto3) (start aliceOnline) strandedMoves).points.keys = [] := by
    decide +kernel
  refine ⟨⟨hpoints, fun h => ?_⟩, by decide +kernel, fun h => ?_⟩
  · have hstored : ∃ r ∈ (final (step .proto3) (start aliceOnline) strandedMoves).rows,
        (final (step .proto3) (start aliceOnline) strandedMoves).sv.findSession r.2.recipientId
          ≠ none := by
      decide +kernel
    obtain ⟨r, hr, honline⟩ := hstored
    rcases h.awaited r hr with hoffline | ⟨s, hs⟩
    · exact honline hoffline
    · have hmem := AList.mem_keys.1 (AList.lookup_isSome.1 (Option.isSome_of_eq_some hs))
      rw [hpoints] at hmem
      exact absurd hmem List.not_mem_nil
  · have hmissed : ∃ e ∈ (final (step .proto3) (start aliceOnline) deadMoves).messages,
        missed e.2 = true := by
      decide +kernel
    obtain ⟨⟨u, fate⟩, he, hmissed⟩ := hmissed
    have hkept := h.kept _ he
    cases fate with
    | stored row => cases hmissed
    | refused => cases hmissed
    | written t core =>
      obtain ⟨c, rfl, hstate, -⟩ := hkept
      simp [missed, hstate] at hmissed

/-- A run of the handlers after a run of the server in which `alice` logged in. -/
theorem messages_arrive_iff_strandedMoves :
    AllStates (step .proto3) Arrives (start aliceOnline) strandedMoves ↔
      AllSteps (step .proto3) (Timely .proto3) (start aliceOnline) strandedMoves :=
  messages_arrive_iff .proto3 aliceOnline
    (Server.wellFormed_run .proto3 Server.aliceBobCrypto ⟨10, 10, 10, []⟩ .empty bobConnects).final
    (by decide +kernel) strandedMoves

end Strands

end Ircord

import IrcordServer.Net.Apart
import IrcordServer.Net.Fanout

/-!
# The registry under its four operations

`on_session_authenticated`, `on_session_disconnected`, `cleanup_dead_sessions` and `shutdown` are
called in any order, on any sessions and with anything else in the server; only, no session
authenticates twice.
-/

open Container Run

namespace Ircord

namespace Server

/-- `cleanup_dead_sessions`. -/
def cleanupDeadSessions (sv : Server) : Server :=
  sv.usersBySession.entries.foldl (fun sv e =>
    if sv.sessions[e.1]?.any fun x => x.state == .dead then sv.removeSession e.1 e.2 else sv) sv

end Server

structure Registry where
  sessionsByUser : UnorderedMap Str SessionId
  usersBySession : UnorderedMap SessionId Str

inductive RegistryCall
  | onSessionAuthenticated (s : SessionId) (userId : Str)
  | onSessionDisconnected (s : SessionId)
  | cleanupDeadSessions
  | shutdown

/-- A call, and what the server holds then beside its registry. -/
structure RegistryInput where
  draws : Draws
  rest : Server
  call : RegistryCall

/-- The session that authenticates. -/
def RegistryInput.authenticates (i : RegistryInput) : Option SessionId :=
  match i.call with
  | .onSessionAuthenticated s _ => some s
  | _ => none

namespace Registry

section Definitions

variable (codec : Codec) (r : Registry) (i : RegistryInput)

def empty : Registry := ⟨∅, ∅⟩

/-- The server that the call finds. -/
def server : Server :=
  { i.rest with sessionsByUser := r.sessionsByUser, usersBySession := r.usersBySession }

/-- The server that it leaves. -/
def perform : Server :=
  match i.call with
  | .onSessionAuthenticated s userId => (r.server i).onSessionAuthenticated codec i.draws s userId
  | .onSessionDisconnected s => (r.server i).onSessionDisconnected codec i.draws s
  | .cleanupDeadSessions => (r.server i).cleanupDeadSessions
  | .shutdown => (r.server i).onShutdown

def step : Registry :=
  ⟨(r.perform codec i).sessionsByUser, (r.perform codec i).usersBySession⟩

/-- The two maps are inverse bijections. -/
def Inverse : Prop := MutuallyInverse r.sessionsByUser r.usersBySession

/-- No other session loses its entry when one is disconnected, and the presence messages of a call
are those of a snapshot, or announce the end of a registration that the call removed. -/
structure CallSound : Prop where
  others : ∀ s t u, i.call = .onSessionDisconnected s → t ≠ s →
    r.sessionsByUser.lookup u = some t → (r.step codec i).sessionsByUser.lookup u = some t
  offline : ∀ p ∈ (r.server i).newlyWritten (r.perform codec i), p.2.type = .presence →
    (∃ s userId u, i.call = .onSessionAuthenticated s userId ∧
      p.2 = Server.presenceEnvelope codec i.draws ⟨u, .online⟩) ∨
    ∃ s u, i.call = .onSessionDisconnected s ∧ r.sessionsByUser.lookup u = some s ∧
      (r.step codec i).sessionsByUser.lookup u = none ∧
      (r.step codec i).usersBySession.lookup s = none ∧
      p.2 = Server.presenceEnvelope codec i.draws ⟨u, .offline⟩

end Definitions

end Registry

/-! ## Messages -/

namespace Server

variable {codec : Codec} {d : Draws} {sv sv' : Server} {s : SessionId} {userId : Str}

theorem newlyWritten_of_append {sent : List (SessionId × Envelope)}
    (h : sv'.written = sv.written ++ sent) : sv.newlyWritten sv' = sent := by
  unfold newlyWritten
  rw [h, List.drop_left]

/-- What the actions send. -/
def sentBy (actions : List Action) : List (SessionId × Envelope) :=
  actions.filterMap fun a => match a with
    | .send t env => some (t, env)
    | .disconnect _ _ => none

theorem written_run (sv : Server) (actions : List Action) :
    (sv.run actions).written = sv.written ++ sentBy actions := by
  induction actions generalizing sv with
  | nil => exact (List.append_nil _).symm
  | cons a actions ih =>
    cases a with
    | send t env =>
      refine (ih (sv.send t env)).trans ?_
      exact (List.append_assoc _ [(t, env)] _)
    | disconnect t reason => exact ih (sv.disconnect t)

theorem written_register (sv : Server) (s : SessionId) (userId : Str) :
    (sv.register s userId).written = sv.written := by
  unfold register
  split <;> rfl

theorem written_unregister (sv : Server) (s : SessionId) :
    (sv.unregister s).written = sv.written := by
  obtain ⟨_, _, e⟩ := unregister_eq sv s
  rw [e]

theorem written_sendPresenceSnapshot (sv : Server) (userIds : List Str) :
    (sv.sendPresenceSnapshot codec d s userIds).written =
      sv.written ++ userIds.map fun u => (s, presenceEnvelope codec d ⟨u, .online⟩) := by
  unfold sendPresenceSnapshot
  induction userIds generalizing sv with
  | nil => exact (List.append_nil _).symm
  | cons u userIds ih =>
    rw [List.foldl_cons, ih, List.map_cons, List.append_cons]
    rfl

/-- The messages of a login are a snapshot. -/
theorem mem_onSessionAuthenticated {p : SessionId × Envelope}
    (hp : p ∈ sv.newlyWritten (sv.onSessionAuthenticated codec d s userId)) :
    ∃ u, p.2 = presenceEnvelope codec d ⟨u, .online⟩ := by
  unfold onSessionAuthenticated at hp
  rw [newlyWritten_of_append ((written_sendPresenceSnapshot _ _).trans
    (congrArg (· ++ _) (written_register sv s userId)))] at hp
  obtain ⟨u, -, rfl⟩ := List.mem_map.1 hp
  exact ⟨u, rfl⟩

/-- The presence messages of a disconnect say that the user of the session is offline. -/
theorem mem_onSessionDisconnected {p : SessionId × Envelope}
    (hp : p ∈ sv.newlyWritten (sv.onSessionDisconnected codec d s)) (htype : p.2.type = .presence) :
    ∃ u, sv.usersBySession.lookup s = some u ∧
      p.2 = presenceEnvelope codec d ⟨u, .offline⟩ := by
  unfold onSessionDisconnected at hp
  split at hp
  · rw [newlyWritten_of_append ((written_unregister sv s).trans (List.append_nil _).symm)] at hp
    cases hp
  · rename_i u huser
    refine ⟨u, huser, ?_⟩
    dsimp only at hp
    split_ifs at hp
    · rw [newlyWritten_of_append ((written_unregister sv s).trans (List.append_nil _).symm)] at hp
      cases hp
    · let sv₁ := (sv.unregister s).broadcastPresence codec d ⟨u, .offline⟩ none
      have hvoice := VoiceRoomManager.roomMessage_onDisconnect codec sv₁.findSession sv₁.voice u
      have hbroadcast : sv₁.written = sv.written ++ ((sv.unregister s).broadcastTargets none).map
          fun t => (t, presenceEnvelope codec d ⟨u, .offline⟩) := by
        rw [← written_unregister sv s]
        exact written_broadcast _ _ _
      have hwritten : (sv₁.leaveVoiceRooms codec u).written = sv.written ++ _ :=
        (written_run _ _).trans ((congrArg (· ++ _) hbroadcast).trans (List.append_assoc _ _ _))
      rw [newlyWritten_of_append hwritten] at hp
      rcases List.mem_append.1 hp with hp | hp
      · obtain ⟨t, -, rfl⟩ := List.mem_map.1 hp
        rfl
      · obtain ⟨a, ha, hsent⟩ := List.mem_filterMap.1 hp
        cases hvoice a ha with
        | send t type payload found kind =>
          cases hsent
          rw [show type = .presence from htype] at kind
          exact absurd kind (by decide)

/-! ## Entries -/

/-- The two maps of the server are inverse bijections. -/
abbrev RegistryInverse (sv : Server) : Prop := MutuallyInverse sv.sessionsByUser sv.usersBySession

variable {t : SessionId} {u : Str}

theorem registryInverse_register (h : sv.RegistryInverse)
    (hs : sv.usersBySession.lookup s = none) : (sv.register s userId).RegistryInverse := by
  unfold register
  split
  · rename_i hfree
    exact h.insert hfree hs
  · rename_i old hold
    refine (h.erase ((h userId old).1 hold)).insert ?_ ?_
    · rw [UnorderedMap.lookup_erase_ite, if_pos rfl]
    · rw [UnorderedMap.lookup_erase_ite]
      split_ifs
      · rfl
      · exact hs

theorem lookup_of_register (h : (sv.register s userId).usersBySession.lookup t = some u) :
    sv.usersBySession.lookup t = some u ∨ s = t ∧ userId = u := by
  unfold register at h
  split at h
  · have h' : (sv.usersBySession.insert s userId).lookup t = some u := h
    rw [UnorderedMap.lookup_insert_ite] at h'
    split_ifs at h' with ht
    · exact Or.inr ⟨ht.symm, Option.some.inj h'⟩
    · exact Or.inl h'
  · rename_i old hold
    have h' : ((sv.usersBySession.erase old).insert s userId).lookup t = some u := h
    rw [UnorderedMap.lookup_insert_ite, UnorderedMap.lookup_erase_ite] at h'
    split_ifs at h' with ht
    · exact Or.inr ⟨ht.symm, Option.some.inj h'⟩
    · exact Or.inl h'

/-- The entries that are left to visit are still there. -/
theorem cleanup_foldl {es : List (Sigma fun _ : SessionId => Str)} (hnodup : es.NodupKeys)
    (hes : ∀ e ∈ es, sv.usersBySession.lookup e.1 = some e.2) (h : sv.RegistryInverse) :
    let sv' := es.foldl (fun sv e => if sv.sessions[e.1]?.any fun x => x.state == .dead then
      sv.removeSession e.1 e.2 else sv) sv
    sv'.RegistryInverse ∧
      ∀ t u, sv'.usersBySession.lookup t = some u → sv.usersBySession.lookup t = some u := by
  induction es generalizing sv with
  | nil => exact ⟨h, fun _ _ ht => ht⟩
  | cons e es ih =>
    have hcons := List.nodupKeys_cons.1 hnodup
    have hrest : ∀ e' ∈ es, sv.usersBySession.lookup e'.1 = some e'.2 := fun e' he' =>
      hes e' (List.mem_cons_of_mem e he')
    rw [List.foldl_cons]
    split_ifs with hdead
    · have herase (t : SessionId) : (sv.removeSession e.1 e.2).usersBySession.lookup t =
          if t = e.1 then none else sv.usersBySession.lookup t :=
        UnorderedMap.lookup_erase_ite _ _ _
      obtain ⟨hinverse, hless⟩ := @ih (sv.removeSession e.1 e.2) hcons.2
        (fun e' he' => by
          rw [herase, if_neg]
          · exact hrest e' he'
          · rintro heq
            exact hcons.1 (heq ▸ List.mem_keys_of_mem he'))
        (h.erase (hes e List.mem_cons_self))
      refine ⟨hinverse, fun t u ht => ?_⟩
      have ht' := hless t u ht
      rw [herase] at ht'
      split_ifs at ht'
      exact ht'
    · exact ih hcons.2 hrest h

theorem cleanupDeadSessions_spec (h : sv.RegistryInverse) :
    sv.cleanupDeadSessions.RegistryInverse ∧ ∀ t u,
      sv.cleanupDeadSessions.usersBySession.lookup t = some u →
        sv.usersBySession.lookup t = some u :=
  cleanup_foldl sv.usersBySession.nodupKeys
    (fun _ he => UnorderedMap.lookup_eq_some_of_mem_entries he) h

theorem written_cleanupDeadSessions (sv : Server) :
    sv.cleanupDeadSessions.written = sv.written := by
  refine @Apart.foldl _ (·.written) _ _ (fun sv e => ?_) _ _
  split_ifs
  · rfl
  · rfl

theorem onShutdown_cases (sv : Server) :
    sv.onShutdown.written = sv.written ∧
      (sv.onShutdown = sv ∨
        sv.onShutdown.sessionsByUser = ∅ ∧ sv.onShutdown.usersBySession = ∅) := by
  unfold onShutdown
  split_ifs
  · exact ⟨rfl, Or.inl rfl⟩
  · have hwritten := @Apart.foldl _ (·.written) _ (fun sv s => sv.disconnect s) (fun _ _ => rfl)
      sv.usersBySession.keys { sv with shuttingDown := true, accepting := false }
    exact ⟨hwritten, Or.inr ⟨rfl, rfl⟩⟩

end Server

namespace Registry

variable {codec : Codec} {r : Registry} {i : RegistryInput} {s t : SessionId} {userId u : Str}

theorem step_of_disconnected (codec : Codec) (r : Registry)
    (hcall : i.call = .onSessionDisconnected s) : r.step codec i =
      ⟨((r.server i).unregister s).sessionsByUser, ((r.server i).unregister s).usersBySession⟩ := by
  unfold step perform
  rw [hcall]
  have hquiet := @Server.quiet_unregister_onSessionDisconnected codec i.draws (r.server i) s
  exact congrArg₂ _ hquiet.sessionsByUser hquiet.usersBySession

/-- The entries after a call, by the call. -/
theorem step_cases (codec : Codec) (r : Registry) (i : RegistryInput) :
    (∃ s userId, i.call = .onSessionAuthenticated s userId ∧ r.step codec i =
      ⟨((r.server i).register s userId).sessionsByUser,
        ((r.server i).register s userId).usersBySession⟩) ∨
    (∃ s, i.call = .onSessionDisconnected s ∧ r.step codec i =
      ⟨((r.server i).unregister s).sessionsByUser, ((r.server i).unregister s).usersBySession⟩) ∨
    (i.call = .cleanupDeadSessions ∧ r.step codec i =
      ⟨(r.server i).cleanupDeadSessions.sessionsByUser,
        (r.server i).cleanupDeadSessions.usersBySession⟩) ∨
    (i.call = .shutdown ∧ (r.step codec i = r ∨ r.step codec i = empty)) := by
  unfold step perform
  cases hcall : i.call with
  | onSessionAuthenticated s userId =>
    refine Or.inl ⟨s, userId, rfl, ?_⟩
    dsimp only
    have hquiet := @Server.quiet_sendPresenceSnapshot False codec i.draws
      ((r.server i).register s userId) s ((r.server i).register s userId).onlineUsers
    exact congrArg₂ _ hquiet.sessionsByUser hquiet.usersBySession
  | onSessionDisconnected s =>
    have hdisconnected := step_of_disconnected codec r hcall
    unfold step perform at hdisconnected
    rw [hcall] at hdisconnected
    exact Or.inr (Or.inl ⟨s, rfl, hdisconnected⟩)
  | cleanupDeadSessions => exact Or.inr (Or.inr (Or.inl ⟨rfl, rfl⟩))
  | shutdown =>
    refine Or.inr (Or.inr (Or.inr ⟨rfl, ?_⟩))
    dsimp only
    rcases (r.server i).onShutdown_cases.2 with e | ⟨e, e'⟩
    · rw [e]
      exact Or.inl rfl
    · rw [e, e']
      exact Or.inr rfl

theorem inverse_step (h : r.Inverse)
    (hfresh : ∀ s ∈ i.authenticates, r.usersBySession.lookup s = none) :
    (r.step codec i).Inverse := by
  rcases step_cases codec r i with ⟨s, userId, hcall, e⟩ | ⟨s, hcall, e⟩ | ⟨hcall, e⟩ | ⟨hcall, e⟩
  · rw [e]
    refine @Server.registryInverse_register (r.server i) s userId h (hfresh s ?_)
    unfold RegistryInput.authenticates
    rw [hcall]
    rfl
  · rw [e]
    exact @Server.registry_unregister (r.server i) s h
  · rw [e]
    exact (@Server.cleanupDeadSessions_spec (r.server i) h).1
  · rcases e with e | e
    · rw [e]
      exact h
    · rw [e]
      exact mutuallyInverse_empty

/-- A session that has an entry had it before, or authenticates. -/
theorem lookup_of_step (h : r.Inverse) (ht : (r.step codec i).usersBySession.lookup t = some u) :
    r.usersBySession.lookup t = some u ∨ t ∈ i.authenticates := by
  rcases step_cases codec r i with ⟨s, userId, hcall, e⟩ | ⟨s, hcall, e⟩ | ⟨hcall, e⟩ | ⟨hcall, e⟩
  · rw [e] at ht
    refine (@Server.lookup_of_register (r.server i) s userId t u ht).imp id fun hst => ?_
    unfold RegistryInput.authenticates
    rw [hcall, hst.1]
    rfl
  · rw [e] at ht
    have ht' : ((r.server i).unregister s).usersBySession.lookup t = some u := ht
    rw [Server.lookup_unregister] at ht'
    split_ifs at ht'
    exact Or.inl ht'
  · rw [e] at ht
    exact Or.inl ((@Server.cleanupDeadSessions_spec (r.server i) h).2 t u ht)
  · rcases e with e | e
    · rw [e] at ht
      exact Or.inl ht
    · rw [e] at ht
      cases ht

theorem callSound (codec : Codec) (i : RegistryInput) (h : r.Inverse) : r.CallSound codec i where
  others s t u hcall ht hu := by
    rw [step_of_disconnected codec r hcall]
    refine (@Server.registry_unregister (r.server i) s h u t).2 ?_
    rw [Server.lookup_unregister, if_neg ht]
    exact (h u t).1 hu
  offline p hp htype := by
    unfold perform at hp
    cases hcall : i.call with
    | onSessionAuthenticated s userId =>
      rw [hcall] at hp
      obtain ⟨u, hu⟩ := Server.mem_onSessionAuthenticated hp
      exact Or.inl ⟨s, userId, u, rfl, hu⟩
    | onSessionDisconnected s =>
      rw [hcall] at hp
      obtain ⟨u, huser, hpresence⟩ := Server.mem_onSessionDisconnected hp htype
      have hu : r.sessionsByUser.lookup u = some s := (h u s).2 huser
      rw [step_of_disconnected codec r hcall]
      refine Or.inr ⟨s, u, rfl, hu, ?_, ?_, hpresence⟩
      · rw [Server.sessionsByUser_unregister huser]
        exact (UnorderedMap.lookup_erase_ite _ _ _).trans (if_pos rfl)
      · rw [Server.lookup_unregister, if_pos rfl]
    | cleanupDeadSessions =>
      rw [hcall] at hp
      have hwritten := (r.server i).written_cleanupDeadSessions
      rw [Server.newlyWritten_of_append (hwritten.trans (List.append_nil _).symm)] at hp
      cases hp
    | shutdown =>
      rw [hcall] at hp
      have hwritten := (r.server i).onShutdown_cases.1
      rw [Server.newlyWritten_of_append (hwritten.trans (List.append_nil _).symm)] at hp
      cases hp

/-! ## Runs -/

/-- What authenticates later has no entry. -/
theorem inverse_run (codec : Codec) (is : List RegistryInput) (h : r.Inverse)
    (hfresh : ∀ s ∈ is.filterMap (·.authenticates), r.usersBySession.lookup s = none)
    (hnodup : (is.filterMap (·.authenticates)).Nodup) : AllStates (step codec) Inverse r is := by
  induction is generalizing r with
  | nil => exact h
  | cons i is ih =>
    have hfirst : ∀ s ∈ i.authenticates, r.usersBySession.lookup s = none := fun s hs =>
      hfresh s (List.mem_filterMap.2 ⟨i, List.mem_cons_self, hs⟩)
    have hothers : (is.filterMap (·.authenticates)).Nodup ∧
        ∀ s ∈ i.authenticates, s ∉ is.filterMap (·.authenticates) := by
      rw [List.filterMap_cons] at hnodup
      split at hnodup
      · rename_i hnone
        exact ⟨hnodup, fun s hs => by rw [hnone] at hs; cases hs⟩
      · rename_i s hsome
        obtain ⟨hnot, hnodup⟩ := List.nodup_cons.1 hnodup
        exact ⟨hnodup, fun t ht => by rw [hsome] at ht; cases ht; exact hnot⟩
    refine ⟨h, ih (inverse_step h hfirst) (fun s hs => ?_) hothers.1⟩
    cases huser : (r.step codec i).usersBySession.lookup s with
    | none => rfl
    | some u =>
      rcases lookup_of_step h huser with hbefore | hnow
      · obtain ⟨j, hj, hs'⟩ := List.mem_filterMap.1 hs
        rw [hfresh s (List.mem_filterMap.2 ⟨j, List.mem_cons_of_mem i hj, hs'⟩)] at hbefore
        cases hbefore
      · exact absurd hs (hothers.2 s hnow)

/-- As long as no session authenticates twice, the two maps are inverse bijections throughout, a
disconnect takes no other session out of them, and whoever is announced as offline lost the entry
in that call. -/
theorem registry_inverse (codec : Codec) (is : List RegistryInput)
    (h : (is.filterMap (·.authenticates)).Nodup) :
    AllStates (step codec) Inverse empty is ∧ AllSteps (step codec) (CallSound codec) empty is := by
  have hinverse : AllStates (step codec) Inverse empty is :=
    inverse_run codec is mutuallyInverse_empty (fun _ _ => rfl) h
  exact ⟨hinverse, hinverse.toSteps fun _ i h => callSound codec i h⟩

/-- Two logins of `alice`, whose first session is reported after the second one has replaced it;
then everything else. -/
def replacedLogin : List RegistryInput :=
  [.onSessionAuthenticated 0 (str "alice"), .onSessionAuthenticated 1 (str "alice"),
    .onSessionDisconnected 0, .cleanupDeadSessions, .onSessionDisconnected 1,
    .onSessionDisconnected 1, .shutdown].map fun call =>
      ⟨(Event.atZero .cleanup).draws, .start ⟨10, 10, 10, []⟩ .empty, call⟩

theorem registry_inverse_replacedLogin :
    AllStates (step .proto3) Inverse empty replacedLogin ∧
      AllSteps (step .proto3) (CallSound .proto3) empty replacedLogin :=
  registry_inverse .proto3 replacedLogin (by decide)

end Registry

end Ircord

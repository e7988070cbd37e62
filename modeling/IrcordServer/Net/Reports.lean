import IrcordServer.Net.Invariant

/-!
# Reported sessions

Which steps call `on_session_disconnected` (`teardown`), and what they leave of the session: its
record as the call found it, no entry in the registry, and one more entry in `disconnected`.
-/

open Container

namespace Ircord

namespace Server

variable {codec : Codec} {crypto : Crypto} {sv sv' : Server} {i : Input} {s : SessionId}

theorem disconnected_onSessionDisconnected (codec : Codec) (d : Draws) (sv : Server)
    (s : SessionId) : (sv.onSessionDisconnected codec d s).disconnected = s :: sv.disconnected := by
  rw [quiet_unregister_onSessionDisconnected.disconnected, disconnected_unregister]

/-- A step with a call of `on_session_disconnected` ends with it. -/
theorem step_of_teardown {sv₁ : Server} (h : sv.teardown codec i = some (s, sv₁)) :
    sv.step codec crypto i = sv₁.onSessionDisconnected codec i.draws s ∧
      sv₁.disconnected = sv.disconnected := by
  unfold teardown at h
  split_ifs at h with henabled
  unfold step
  rw [if_pos henabled]
  cases hevent : i.event with
  | handshakeDone t ok =>
    rw [hevent] at h
    cases ok with
    | true => cases h
    | false => cases h; exact ⟨rfl, rfl⟩
  | headerRead t size =>
    rw [hevent] at h
    cases size with
    | none => cases h; exact ⟨rfl, rfl⟩
    | some size =>
      unfold teardownCall at h
      unfold perform onHeader
      dsimp only at h ⊢
      split_ifs at h ⊢
      · cases h
        exact ⟨rfl, (@quiet_sendError False codec _ _ _ _ _).disconnected⟩
      · cases h
        exact ⟨rfl, rfl⟩
  | payloadRead t data =>
    rw [hevent] at h henabled
    cases data with
    | some data => cases h
    | none =>
      cases h
      obtain ⟨x, found, -⟩ := found_of_any henabled
      unfold perform
      dsimp only
      rw [found]
      exact ⟨rfl, rfl⟩
  | writeDone t ok =>
    rw [hevent] at h
    cases ok with
    | true => cases h
    | false => cases h; exact ⟨rfl, rfl⟩
  | timerFires t wait =>
    rw [hevent] at h
    unfold teardownCall at h
    unfold perform
    dsimp only at h ⊢
    cases found : sv.sessions[t]? with
    | none => rw [found] at h; cases h
    | some x =>
      rw [found] at h
      dsimp only at h ⊢
      split_ifs at h with hpings
      cases h
      obtain ⟨hstate, hwait⟩ := hpings
      unfold onTimer
      dsimp only
      rw [if_neg (not_not_intro hstate)]
      cases wait with
      | timeout => exact ⟨rfl, rfl⟩
      | interval =>
        rw [hwait.resolve_left (by decide)]
        exact ⟨rfl, rfl⟩
  | _ =>
    rw [hevent] at h
    cases h

theorem disconnected_of_teardown {sv₁ : Server} (h : sv.teardown codec i = some (s, sv₁)) :
    (sv.step codec crypto i).disconnected = s :: sv.disconnected := by
  obtain ⟨hstep, hsame⟩ := @step_of_teardown codec crypto sv i s sv₁ h
  rw [hstep, disconnected_onSessionDisconnected, hsame]

/-- A step that records no report makes no call. -/
theorem teardown_eq_none (crypto : Crypto)
    (h : (sv.step codec crypto i).disconnected = sv.disconnected) : sv.teardown codec i = none := by
  cases hcall : sv.teardown codec i with
  | none => rfl
  | some call =>
    have hlonger := @disconnected_of_teardown codec crypto sv i call.1 call.2 hcall
    rw [h] at hlonger
    exact absurd hlonger.symm (List.cons_ne_self _ _)

/-- The sessions reported in a step. -/
theorem mem_disconnected_step (codec : Codec) (crypto : Crypto) (i : Input)
    (h : s ∈ (sv.step codec crypto i).disconnected) :
    s ∈ sv.disconnected ∨ ∃ sv₁, sv.teardown codec i = some (s, sv₁) := by
  cases step_effect codec crypto sv i with
  | background quiet => exact Or.inl (quiet.disconnected ▸ h)
  | session t x g found alive fresh step moves => exact Or.inl (moves.disconnected ▸ h)
  | auth t x auth found size reads state received presents authenticates =>
    exact Or.inl (authenticates.disconnected ▸ h)
  | teardown t x sv₁ g found call alive completes fresh moves quiet =>
    rw [quiet.disconnected, disconnected_unregister, moves.disconnected] at h
    rcases List.mem_cons.1 h with rfl | h
    · exact Or.inr ⟨sv₁, call⟩
    · exact Or.inl h
  | accept sessions sessionsByUser usersBySession below maxConnections activeConnections
      disconnected => exact Or.inl (disconnected ▸ h)
  | shutdown event first core untouched sessionsByUser usersBySession activeConnections
      disconnected => exact Or.inl (disconnected ▸ h)

/-- What is left of a session after the call of `on_session_disconnected` for it. -/
theorem reported_of_teardown (crypto : Crypto) (h : WellFormed sv) {sv₁ : Server}
    (call : sv.teardown codec i = some (s, sv₁)) :
    ∃ x, sv₁.sessions[s]? = some x ∧ (sv.step codec crypto i).sessions[s]? = some x ∧
      x.handshaking = false ∧ ¬ (sv.step codec crypto i).Registered s := by
  have hcalm {sv' : Server} (hstep : sv.step codec crypto i = sv')
      (hsame : sv'.disconnected = sv.disconnected) : False := by
    rw [← hstep] at hsame
    cases (teardown_eq_none crypto hsame).symm.trans call
  have heffect := step_effect codec crypto sv i
  generalize hsv' : sv.step codec crypto i = sv' at heffect ⊢
  cases heffect with
  | background quiet => exact (hcalm hsv' quiet.disconnected).elim
  | session t x g found alive fresh step moves => exact (hcalm hsv' moves.disconnected).elim
  | auth t x auth found size reads state received presents authenticates =>
    exact (hcalm hsv' authenticates.disconnected).elim
  | teardown t x₀ sv₁ g found call' alive completes fresh moves quiet =>
    cases call'.symm.trans call
    have hcore := moves.core s
    rw [if_pos rfl, core_of_sessions found] at hcore
    obtain ⟨x, hx, hxcore⟩ := core_eq_some.1 hcore
    refine ⟨x, hx, ?_, ?_, not_registered_of_teardown h moves quiet (Or.inl rfl)⟩
    · rw [sessions_of_teardown h moves quiet (Or.inl rfl), hx]
    · by_contra hbusy
      have hg : (g x₀.core).handshaking = true := by
        rw [← hxcore]
        exact Bool.eq_true_of_not_eq_false hbusy
      have hnew := h.fresh s x₀ found (completes.handshaking x₀.core hg)
      exact Bool.false_ne_true ((fresh hnew).symm.trans hg)
  | accept sessions sessionsByUser usersBySession below maxConnections activeConnections
      disconnected => exact (hcalm hsv' disconnected).elim
  | shutdown event first core untouched sessionsByUser usersBySession activeConnections
      disconnected => exact (hcalm hsv' disconnected).elim

end Server

end Ircord

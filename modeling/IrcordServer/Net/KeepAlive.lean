import IrcordServer.Net.Connections
import IrcordServer.Net.Pulses

/-!
# The keep-alive of a session

A session that is established sends a `PING` after each interval and expects a `PONG` before the
timeout.  A wait that has expired cannot be cancelled, so a `PONG` that comes before the wait is
handled arms the timer a second time.
-/

open Container Run

namespace Ircord

/-- A `PING` that the timer sends, or a `PONG` that is received. -/
inductive Beat
  | ping | pong
  deriving DecidableEq

/-- How many waits of the timer have still to be handled. -/
def Pulse.waits (p : Pulse) : ℕ := p.timer.toList.length + p.expired.length

namespace Server

section Definitions

variable (codec : Codec) (crypto : Crypto) (t : SessionId) (sv : Server) (i : Input)

/-- The step receives a `PONG` of `t`. -/
def pongs : Bool := (delivered codec t sv i).any fun env => env.type = .pong

/-- In the step a handler of the ping timer of `t` writes a `PING` to it. -/
def pings : Bool :=
  match i.event with
  | .timerFires s _ =>
    s = t && (sv.newlyWritten (sv.step codec crypto i)).any fun e => e.1 = t && e.2.type = .ping
  | _ => false

/-- What the step adds to the exchange with `t`. -/
def beat : Option Beat :=
  if pongs codec t sv i then some .pong
  else if pings codec crypto t sv i then some .ping
  else none

end Definitions

section Proofs

variable {codec : Codec} {crypto : Crypto} {sv : Server} {i : Input} {t : SessionId} {p p' : Pulse}

/-! ## The exchange -/

theorem pings_of_event (h : ∀ wait, i.event ≠ .timerFires t wait) :
    pings codec crypto t sv i = false := by
  unfold pings
  split
  · rename_i s wait hevent
    have hne : s ≠ t := by
      rintro rfl
      exact h wait hevent
    rw [decide_eq_false hne, Bool.false_and]
  · rfl

theorem pongs_of_delivered {env : Envelope} (h : delivered codec t sv i = some env) :
    pongs codec t sv i = decide (env.type = .pong) := by
  unfold pongs
  rw [h, Option.any_some]

theorem pongs_of_event (h : ∀ data, i.event ≠ .payloadRead t (some data)) :
    pongs codec t sv i = false := by
  unfold pongs
  cases hdelivered : delivered codec t sv i with
  | none => rfl
  | some env =>
    obtain ⟨data, hevent⟩ := delivered_of_event hdelivered
    exact absurd hevent (h data)

theorem pings_of_delivered {env : Envelope} (h : delivered codec t sv i = some env) :
    pings codec crypto t sv i = false := by
  obtain ⟨data, hevent⟩ := delivered_of_event h
  exact pings_of_event fun wait hfires => nomatch hevent.symm.trans hfires

theorem pings_eq_false {wait : TimerWait} (hevent : i.event = .timerFires t wait)
    (h : ∀ e ∈ sv.newlyWritten (sv.step codec crypto i), e.2.type ≠ .ping) :
    pings codec crypto t sv i = false := by
  unfold pings
  rw [hevent]
  dsimp only
  rw [Bool.and_eq_false_iff, List.any_eq_false]
  right
  intro e he
  simp [h e he]

theorem beat_eq_none (hpongs : pongs codec t sv i = false)
    (hpings : pings codec crypto t sv i = false) : beat codec crypto t sv i = none := by
  unfold beat
  rw [hpongs, hpings]
  rfl

theorem beat_of_delivered {env : Envelope} (h : delivered codec t sv i = some env)
    (htype : env.type ≠ .pong) : beat codec crypto t sv i = none :=
  beat_eq_none ((pongs_of_delivered h).trans (decide_eq_false htype)) (pings_of_delivered h)

/-- A `PONG` clears the flag, a `PING` finds it cleared and sets it. -/
theorem beat_cases (h : PulseStep codec crypto sv i t p p') :
    (beat codec crypto t sv i = some .pong ∧ p'.pingSent = false) ∨
      (beat codec crypto t sv i = some .ping ∧ p.pingSent = false ∧ p'.pingSent = true) ∨
      (beat codec crypto t sv i = none ∧ (p'.pingSent = p.pingSent ∨
        (p.state = .authPending ∧ p'.pingSent = false))) := by
  cases h with
  | same calm silent =>
    refine Or.inr (Or.inr ⟨beat_eq_none ?_ ?_, Or.inl rfl⟩)
    · unfold pongs
      rw [Option.any_eq_false]
      exact fun env henv => decide_eq_false (calm env henv)
    · by_cases hfires : ∃ wait, i.event = .timerFires t wait
      · obtain ⟨wait, hevent⟩ := hfires
        refine pings_eq_false hevent fun e he => ?_
        unfold newlyWritten at he
        rw [silent wait hevent, List.drop_length] at he
        cases he
      · exact pings_of_event fun wait hevent => hfires ⟨wait, hevent⟩
  | opens fresh event =>
    refine Or.inr (Or.inr ⟨beat_eq_none ?_ ?_, Or.inl rfl⟩)
    · exact pongs_of_event fun data hread => nomatch event.symm.trans hread
    · exact pings_of_event fun wait hfires => nomatch event.symm.trans hfires
  | hello env received type state =>
    exact Or.inr (Or.inr ⟨beat_of_delivered received (type ▸ nofun), Or.inl rfl⟩)
  | login env received type state =>
    exact Or.inr (Or.inr ⟨beat_of_delivered received (type ▸ nofun), Or.inr ⟨state, rfl⟩⟩)
  | pong env received type =>
    refine Or.inl ⟨?_, rfl⟩
    unfold beat
    rw [pongs_of_delivered received, decide_eq_true type, if_pos rfl]
  | limited env received checked state limiter own =>
    refine Or.inr (Or.inr ⟨beat_of_delivered received ?_, Or.inl rfl⟩)
    rintro htype
    unfold Envelope.isLimited at checked
    rw [htype] at checked
    cases checked
  | expires event =>
    refine Or.inr (Or.inr ⟨beat_eq_none ?_ ?_, Or.inl rfl⟩)
    · exact pongs_of_event fun data hread => nomatch event.symm.trans hread
    · exact pings_of_event fun wait hfires => nomatch event.symm.trans hfires
  | fires wait event queued ends silent =>
    refine Or.inr (Or.inr ⟨beat_eq_none ?_ (pings_eq_false event silent), Or.inl rfl⟩)
    exact pongs_of_event fun data hread => nomatch event.symm.trans hread
  | pings event queued state unsent seq sent =>
    have hpongs : pongs codec t sv i = false :=
      pongs_of_event fun data hread => nomatch event.symm.trans hread
    have hpings : Server.pings codec crypto t sv i = true := by
      unfold Server.pings
      rw [event]
      dsimp only
      rw [sent]
      simp
    refine Or.inr (Or.inl ⟨?_, unsent, rfl⟩)
    unfold beat
    rw [hpongs, hpings]
    rfl
  | closed event =>
    refine Or.inr (Or.inr ⟨beat_eq_none ?_ ?_, Or.inl rfl⟩)
    · exact pongs_of_event fun data hread => nomatch event.symm.trans hread
    · exact pings_of_event fun wait hfires => nomatch event.symm.trans hfires

/-! ## Alternation -/

/-- Before it is established, a session was sent no `PING`. -/
def Unpinged (p : Pulse) : Prop :=
  p.state = .handshake ∨ p.state = .hello ∨ p.state = .authPending → p.pingSent = false

theorem unpinged_step (h : PulseStep codec crypto sv i t p p') (hp : Unpinged p) :
    Unpinged p' := by
  cases h with
  | same => exact hp
  | opens fresh =>
    rw [fresh]
    exact fun _ => rfl
  | hello env received type state => exact fun _ => hp (Or.inr (Or.inl state))
  | login => exact fun _ => rfl
  | pong => exact fun _ => rfl
  | limited => exact hp
  | expires => exact hp
  | fires => exact hp
  | pings event queued state => exact fun hearly => by simp [state] at hearly
  | closed => exact fun hearly => by simp at hearly

/-- The last beat was a `PING` exactly if the flag is set. -/
def Recorded (t : SessionId) (beats : List Beat) (sv : Server) : Prop :=
  ¬ [Beat.ping, .ping] <:+: beats ∧ WellFormed sv ∧
    (sv.meters.pulse t = none → beats = []) ∧
    ∀ p, sv.meters.pulse t = some p → Unpinged p ∧ (p.pingSent = true ↔ beats.getLast? = some .ping)

theorem beat_of_no_session (hnone : sv.meters.pulse t = none) :
    beat codec crypto t sv i = none := by
  have hsession : sv.sessions[t]? = none := Option.map_eq_none_iff.1 hnone
  refine beat_eq_none ?_ ?_
  · unfold pongs
    cases hdelivered : delivered codec t sv i with
    | none => rfl
    | some env =>
      obtain ⟨x, found, -⟩ := @step_of_delivered codec crypto sv t i env hdelivered
      cases hsession.symm.trans found
  · by_cases hfires : ∃ wait, i.event = .timerFires t wait
    · obtain ⟨wait, hevent⟩ := hfires
      have hdisabled : sv.enabled i.event = false := by
        rw [hevent]
        unfold enabled
        simp only [hsession, Option.any_none, Bool.and_false]
      have hidle : sv.step codec crypto i = sv := by
        unfold step
        rw [hdisabled, if_neg Bool.false_ne_true]
      refine pings_eq_false hevent fun e he => ?_
      unfold newlyWritten at he
      rw [hidle, List.drop_length] at he
      cases he
    · exact pings_of_event fun wait hevent => hfires ⟨wait, hevent⟩

/-- Two `PING`s come together only when a `PING` follows the last beat. -/
theorem apart_concat {beats : List Beat} {b : Beat} (h : ¬ [Beat.ping, .ping] <:+: beats)
    (hb : b = .ping → beats.getLast? ≠ some .ping) : ¬ [Beat.ping, .ping] <:+: beats ++ [b] := by
  rw [List.infix_concat_iff]
  rintro (hsuffix | hwithin)
  · rcases List.suffix_concat_iff.1 hsuffix with hnil | ⟨front, hfront, hend⟩
    · cases hnil
    · obtain ⟨rfl, hping⟩ := @List.append_inj' _ [Beat.ping] [Beat.ping] _ _ hfront rfl
      exact hb (List.cons.inj hping).1.symm (List.singleton_suffix_iff_getLast?_eq_some.1 hend)
  · exact h hwithin

theorem recorded_step {beats : List Beat} (h : Recorded t beats sv) :
    Recorded t (beats ++ (beat codec crypto t sv i).toList) (sv.step codec crypto i) := by
  obtain ⟨hapart, hwf, hnew, hflag⟩ := h
  cases hp : sv.meters.pulse t with
  | none =>
    rw [beat_of_no_session hp, hnew hp]
    refine ⟨by simp, wellFormed_step codec crypto i hwf, fun _ => rfl, fun p' hp' => ?_⟩
    rw [step_pulse_new hp hp']
    exact ⟨fun _ => rfl, by simp [Session.pulse, Session.new]⟩
  | some p =>
    obtain ⟨hunpinged, hlast⟩ := hflag p hp
    obtain ⟨p', hp', hstep⟩ := step_pulse codec crypto (i := i) hwf hp
    have hnext : ¬ [Beat.ping, .ping] <:+: beats ++ (beat codec crypto t sv i).toList ∧
        (p'.pingSent = true ↔
          (beats ++ (beat codec crypto t sv i).toList).getLast? = some .ping) := by
      rcases beat_cases hstep with ⟨hbeat, hsent⟩ | ⟨hbeat, hunsent, hsent⟩ | ⟨hbeat, hsent⟩
      · rw [hbeat, hsent]
        exact ⟨apart_concat hapart nofun, by simp⟩
      · rw [hbeat, hsent]
        refine ⟨apart_concat hapart fun _ hcontra => ?_, by simp⟩
        rw [hlast.2 hcontra] at hunsent
        cases hunsent
      · rw [hbeat, Option.toList_none, List.append_nil]
        refine ⟨hapart, ?_⟩
        rcases hsent with hsame | ⟨hpending, hsent⟩
        · rw [hsame]
          exact hlast
        · rw [hsent, ← hlast, hunpinged (Or.inr (Or.inr hpending))]
    refine ⟨hnext.1, wellFormed_step codec crypto i hwf, fun hnone => ?_, fun q hq => ?_⟩
    · cases hnone.symm.trans hp'
    · cases hq.symm.trans hp'
      exact ⟨unpinged_step hstep hunpinged, hnext.2⟩

theorem recorded_run (codec : Codec) (crypto : Crypto) (config : Config) (db : Database)
    (t : SessionId) (is : List Input) :
    Recorded t (observe (step codec crypto) (beat codec crypto t) (start config db) is)
      (final (step codec crypto) (start config db) is) := by
  refine history_induction (H := fun is sv => Recorded t
    (observe (step codec crypto) (beat codec crypto t) (start config db) is) sv) ?_ ?_ is
  · exact ⟨by simp [observe], wellFormed_start config db, fun _ => rfl, nofun⟩
  · intro is i h
    rw [observe_snoc]
    exact recorded_step h

/-- A session that has not answered a `PING` is not sent another one. -/
theorem pings_alternate (codec : Codec) (crypto : Crypto) (config : Config) (db : Database)
    (t : SessionId) (is : List Input) :
    ¬ [Beat.ping, .ping] <:+:
      observe (step codec crypto) (beat codec crypto t) (start config db) is :=
  (recorded_run codec crypto config db t is).1

/-! ## The waits of one timer -/

/-- The timer of `t` has one wait at most. -/
def OneWait (t : SessionId) (sv : Server) : Prop := ∀ p, sv.meters.pulse t = some p → p.waits ≤ 1

/-- The step arms the timer of `t` anew, by a `PONG` or a login. -/
def Rearms (codec : Codec) (crypto : Crypto) (t : SessionId) (sv : Server) (i : Input) : Prop :=
  pongs codec t sv i = true ∨ ∃ p p', sv.meters.pulse t = some p ∧
    (sv.step codec crypto i).meters.pulse t = some p' ∧
      p.state = .authPending ∧ p'.state = .established

/-- No wait that has expired is queued when the timer is armed anew. -/
def Prompt (codec : Codec) (crypto : Crypto) (t : SessionId) (sv : Server) (i : Input) : Prop :=
  Rearms codec crypto t sv i → ∀ p, sv.meters.pulse t = some p → p.expired = []

theorem prompt_of_calm (hp : sv.meters.pulse t = some p)
    (hp' : (sv.step codec crypto i).meters.pulse t = some p')
    (hpongs : pongs codec t sv i = false)
    (hstate : p.state = .authPending → p'.state ≠ .established) : Prompt codec crypto t sv i := by
  rintro (hpong | ⟨q, q', hq, hq', hpending, hestablished⟩)
  · rw [hpongs] at hpong
    cases hpong
  · cases hq.symm.trans hp
    cases hq'.symm.trans hp'
    exact absurd hestablished (hstate hpending)

theorem pongs_eq_false {env : Envelope} (h : delivered codec t sv i = some env)
    (htype : env.type ≠ .pong) : pongs codec t sv i = false :=
  (pongs_of_delivered h).trans (decide_eq_false htype)

theorem length_erase_add {wait : TimerWait} {expired : List TimerWait} (h : wait ∈ expired) :
    (expired.erase wait).length + 1 = expired.length := by
  rw [List.length_erase_of_mem h, Nat.sub_add_cancel (List.length_pos_of_mem h)]

/-- A step keeps to one wait exactly if it arms the timer with none in the queue. -/
theorem waits_le_one_iff (hp : sv.meters.pulse t = some p)
    (hp' : (sv.step codec crypto i).meters.pulse t = some p')
    (h : PulseStep codec crypto sv i t p p')
    (hone : p.waits ≤ 1) : p'.waits ≤ 1 ↔ Prompt codec crypto t sv i := by
  have harmed (hrearms : Rearms codec crypto t sv i) (hlength : p'.waits = 1 + p.expired.length) :
      p'.waits ≤ 1 ↔ Prompt codec crypto t sv i := by
    rw [hlength]
    constructor
    · intro hle _ q hq
      cases hq.symm.trans hp
      exact List.length_eq_zero_iff.1 (by omega)
    · intro hprompt
      rw [hprompt hrearms p hp]
      exact le_rfl
  have hcalm (hle : p'.waits ≤ p.waits) (hpongs : pongs codec t sv i = false)
      (hstate : p.state = .authPending → p'.state ≠ .established) :
      p'.waits ≤ 1 ↔ Prompt codec crypto t sv i :=
    iff_of_true (hle.trans hone) (prompt_of_calm hp hp' hpongs hstate)
  cases h with
  | same calm silent =>
    refine hcalm le_rfl ?_ fun hpending => hpending ▸ nofun
    unfold pongs
    rw [Option.any_eq_false]
    exact fun env henv => decide_eq_false (calm env henv)
  | opens fresh event =>
    exact hcalm le_rfl (pongs_of_event fun data hread => nomatch event.symm.trans hread)
      fun _ => nofun
  | hello env received type state =>
    exact hcalm le_rfl (pongs_eq_false received (type ▸ nofun)) fun _ => nofun
  | login env received type state =>
    exact harmed (Or.inr ⟨p, _, hp, hp', state, rfl⟩) rfl
  | pong env received type =>
    exact harmed (Or.inl ((pongs_of_delivered received).trans (decide_eq_true type))) rfl
  | limited env received checked state limiter own =>
    refine hcalm le_rfl (pongs_eq_false received ?_) fun hpending =>
      nomatch state.symm.trans hpending
    rintro htype
    unfold Envelope.isLimited at checked
    rw [htype] at checked
    cases checked
  | expires event =>
    refine hcalm (le_of_eq ?_) (pongs_of_event fun data hread => nomatch event.symm.trans hread)
      fun hpending => ?_
    · simp only [Pulse.waits, Option.toList_none, List.length_nil, List.length_append]
      omega
    · exact hpending ▸ nofun
  | fires wait event queued ends silent =>
    refine hcalm ?_ (pongs_of_event fun data hread => nomatch event.symm.trans hread)
      fun hpending => hpending ▸ nofun
    have hless := length_erase_add queued
    simp only [Pulse.waits]
    omega
  | pings event queued state unsent seq sent =>
    refine hcalm ?_ (pongs_of_event fun data hread => nomatch event.symm.trans hread)
      fun hpending => nomatch state.symm.trans hpending
    have hless := length_erase_add queued
    simp only [Pulse.waits, Option.toList_some, List.length_singleton] at hone ⊢
    omega
  | closed event =>
    refine hcalm ?_ (pongs_of_event fun data hread => nomatch event.symm.trans hread) fun _ => nofun
    simp [Pulse.waits]

theorem oneWait_step_iff (hwf : WellFormed sv) (h : OneWait t sv) :
    OneWait t (sv.step codec crypto i) ↔ Prompt codec crypto t sv i := by
  cases hp : sv.meters.pulse t with
  | none =>
    refine iff_of_true (fun p' hp' => ?_) fun _ p hsome => nomatch hp.symm.trans hsome
    rw [step_pulse_new hp hp']
    exact Nat.zero_le 1
  | some p =>
    obtain ⟨p', hp', hstep⟩ := step_pulse codec crypto (i := i) hwf hp
    rw [← waits_le_one_iff hp hp' hstep (h p hp)]
    constructor
    · exact fun hone => hone p' hp'
    · intro hone q hq
      cases hq.symm.trans hp'
      exact hone

/-! ## The timer goes on -/

/-- While the session is established and not reported, its timer has a wait. -/
def Waiting (t : SessionId) (sv : Server) : Prop :=
  ∀ p, sv.meters.pulse t = some p → p.state = .established → 0 < p.waits ∨ t ∈ sv.disconnected

theorem disconnected_subset (h : t ∈ sv.disconnected) :
    t ∈ (sv.step codec crypto i).disconnected := by
  cases step_counts codec crypto sv i with
  | same calm length disconnected => rwa [disconnected]
  | accept calm length disconnected => rwa [disconnected]
  | report s sv₁ call accepted length disconnected =>
    rw [disconnected]
    exact List.mem_cons_of_mem s h

theorem waiting_step (hwf : WellFormed sv) (h : Waiting t sv) :
    Waiting t (sv.step codec crypto i) := by
  intro p' hp' hestablished
  cases hp : sv.meters.pulse t with
  | none =>
    rw [step_pulse_new hp hp'] at hestablished
    cases hestablished
  | some p =>
    obtain ⟨q, hq, hstep⟩ := step_pulse codec crypto (i := i) hwf hp
    cases hq.symm.trans hp'
    have hkept (hstate : p.state = .established) (hle : p.waits ≤ p'.waits) :
        0 < p'.waits ∨ t ∈ (sv.step codec crypto i).disconnected :=
      (h p hp hstate).imp (fun hpos => hpos.trans_le hle) disconnected_subset
    cases hstep with
    | same calm silent => exact hkept hestablished le_rfl
    | opens => cases hestablished
    | hello => cases hestablished
    | login => exact Or.inl (Nat.lt_of_lt_of_le Nat.one_pos (Nat.le_add_right 1 _))
    | pong => exact Or.inl (Nat.lt_of_lt_of_le Nat.one_pos (Nat.le_add_right 1 _))
    | limited => exact hkept hestablished le_rfl
    | expires event =>
      refine hkept hestablished (le_of_eq ?_)
      simp only [Pulse.waits, Option.toList_none, List.length_nil, List.length_append]
      omega
    | fires wait event queued ends => exact Or.inr (ends hestablished).2
    | pings => exact Or.inl (Nat.lt_of_lt_of_le Nat.one_pos (Nat.le_add_right 1 _))
    | closed => cases hestablished

/-! ## Reports of silent clients -/

/-- A wait is for a `PONG` exactly if the flag is set. -/
def Matched (t : SessionId) (sv : Server) : Prop :=
  ∀ p, sv.meters.pulse t = some p → p.state = .established →
    ∀ wait ∈ p.timer.toList ++ p.expired, wait = .timeout ↔ p.pingSent = true

theorem matched_step (hwf : WellFormed sv) (hone : OneWait t sv) (h : Matched t sv)
    (hprompt : Prompt codec crypto t sv i) : Matched t (sv.step codec crypto i) := by
  intro p' hp' hestablished wait hwait
  cases hp : sv.meters.pulse t with
  | none =>
    rw [step_pulse_new hp hp'] at hestablished
    cases hestablished
  | some p =>
    obtain ⟨q, hq, hstep⟩ := step_pulse codec crypto (i := i) hwf hp
    cases hq.symm.trans hp'
    have hone := hone p hp
    have harmed (hrearms : Rearms codec crypto t sv i)
        (hmem : wait ∈ TimerWait.interval :: p.expired) : wait = .timeout ↔ false = true := by
      rw [hprompt hrearms p hp] at hmem
      rw [List.mem_singleton.1 hmem]
      exact iff_of_false nofun nofun
    cases hstep with
    | same => exact h _ hp hestablished wait hwait
    | opens => cases hestablished
    | hello => cases hestablished
    | login env received type state => exact harmed (Or.inr ⟨p, _, hp, hp', state, rfl⟩) hwait
    | pong env received type =>
      exact harmed (Or.inl ((pongs_of_delivered received).trans (decide_eq_true type))) hwait
    | limited => exact h p hp hestablished wait hwait
    | expires event =>
      refine h p hp hestablished wait ?_
      simp only [Option.toList_none, List.nil_append, List.mem_append] at hwait ⊢
      exact hwait.symm
    | fires fired event queued =>
      refine h p hp hestablished wait ?_
      rcases List.mem_append.1 hwait with hwait | hwait
      · exact List.mem_append_left _ hwait
      · exact List.mem_append_right _ (List.mem_of_mem_erase hwait)
    | pings event queued state =>
      have hless := length_erase_add queued
      have hempty : p.expired.erase .interval = [] := by
        unfold Pulse.waits at hone
        exact List.length_eq_zero_iff.1 (by omega)
      rw [hempty] at hwait
      rw [List.mem_singleton.1 hwait]
      exact iff_of_true rfl rfl
    | closed => cases hestablished

/-- A handler of the timer that ends the session finds a `PING` without its answer. -/
theorem timeout_of_teardown {wait : TimerWait} {sv₁ : Server}
    (hmatched : Matched t sv) (hevent : i.event = .timerFires t wait)
    (hcall : sv.teardown codec i = some (t, sv₁)) :
    wait = .timeout ∧ ∃ p, sv.meters.pulse t = some p ∧ p.pingSent = true := by
  unfold teardown at hcall
  split_ifs at hcall with henabled
  rw [hevent] at hcall henabled
  obtain ⟨-, hexpired⟩ := (Bool.and_eq_true _ _).mp henabled
  obtain ⟨x, found, hqueued⟩ := found_of_any hexpired
  unfold teardownCall at hcall
  simp only [found] at hcall
  split_ifs at hcall with hends
  obtain ⟨hstate, hends⟩ := hends
  have hp := pulse_of_found found
  have hmatch := hmatched _ hp hstate wait
    (List.mem_append_right _ (List.contains_iff_mem.1 hqueued))
  have hsent : x.pulse.pingSent = true := hends.elim hmatch.1 id
  exact ⟨hmatch.2 hsent, _, hp, hsent⟩

/-- The timer of an established session goes on until it reports the session.  It has one wait at a
time exactly in the runs in which no expired wait is queued when it is armed anew, and in these it
reports only clients that have not answered their last `PING` when the timeout has expired. -/
theorem keep_alive (codec : Codec) (crypto : Crypto) (config : Config) (db : Database)
    (t : SessionId) (is : List Input) :
    AllStates (step codec crypto) (Waiting t) (start config db) is ∧
      (AllStates (step codec crypto) (OneWait t) (start config db) is ↔
        AllSteps (step codec crypto) (Prompt codec crypto t) (start config db) is) ∧
      (AllSteps (step codec crypto) (Prompt codec crypto t) (start config db) is →
        ∀ pre i post wait sv₁, is = pre ++ i :: post → i.event = .timerFires t wait →
          (final (step codec crypto) (start config db) pre).teardown codec i = some (t, sv₁) →
          wait = .timeout ∧
            (observe (step codec crypto) (beat codec crypto t) (start config db)
              pre).getLast? = some .ping) := by
  have hstart : OneWait t (start config db) := nofun
  have hiff : AllStates (step codec crypto) (OneWait t) (start config db) is ↔
      AllSteps (step codec crypto) (Prompt codec crypto t) (start config db) is :=
    allStates_iff_of_invariant (I := WellFormed) (wellFormed_start config db)
      (fun _ i => wellFormed_step codec crypto i) hstart fun _ _ => oneWait_step_iff
  refine ⟨?_, hiff, ?_⟩
  · have hrun : AllStates (step codec crypto) (fun sv => WellFormed sv ∧ Waiting t sv)
        (start config db) is :=
      .of_invariant ⟨wellFormed_start config db, nofun⟩
        (fun _ i h => ⟨wellFormed_step codec crypto i h.1, waiting_step h.1 h.2⟩) is
    exact hrun.mono fun _ h => h.2
  · intro hprompt pre i post wait sv₁ hsplit hevent hcall
    have hmatched : AllStates (step codec crypto)
        (fun sv => WellFormed sv ∧ OneWait t sv ∧ Matched t sv) (start config db) is :=
      .of_steps ⟨wellFormed_start config db, hstart, nofun⟩
        (fun _ i h hprompt => ⟨wellFormed_step codec crypto i h.1,
          (oneWait_step_iff h.1 h.2.1).2 hprompt, matched_step h.1 h.2.1 h.2.2 hprompt⟩) hprompt
    obtain ⟨-, -, hbefore⟩ := allStates_iff.1 hmatched pre (i :: post) hsplit
    obtain ⟨htimeout, p, hp, hsent⟩ := timeout_of_teardown hbefore hevent hcall
    obtain ⟨-, -, -, hrecorded⟩ := recorded_run codec crypto config db t pre
    exact ⟨htimeout, ((hrecorded p hp).2).1 hsent⟩

end Proofs

end Server

end Ircord

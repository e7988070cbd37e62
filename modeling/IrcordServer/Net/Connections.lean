import IrcordServer.Net.Reports
import Mathlib.Data.Finset.Card
import Mathlib.Data.Finset.Range

/-!
# The connection counter

`active_connections_` counts the accepted sessions that were not yet reported to
`on_session_disconnected`, in every state of a run exactly when no session is reported twice
(`counter_balanced_iff`).  It also bounds the open connections if every report finds its session
closed, or about to be destroyed (`connections_bounded`).
-/

open Container Run

namespace Ircord

namespace Server

section Connections

variable (codec : Codec) (crypto : Crypto) (sv : Server) (i : Input)

/-- The accepted sessions for which `on_session_disconnected` was not called. -/
def unreported : Finset SessionId :=
  (Finset.range sv.sessions.length).filter fun s => s ∉ sv.disconnected

/-- The connection of `s` is open: its socket was not closed, and the session was not destroyed. -/
def IsOpen (s : SessionId) : Prop := (sv.core s).any (·.socketOpen) = true ∧ sv.Alive s

instance (s : SessionId) : Decidable (sv.IsOpen s) := inferInstanceAs (Decidable (_ ∧ _))

def openConnections : Finset SessionId :=
  (Finset.range sv.sessions.length).filter sv.IsOpen

/-- The counter counts the unreported sessions. -/
def CounterBalanced : Prop := sv.activeConnections = sv.unreported.card

/-- A step that accepts a connection leaves at most `max_connections_` open. -/
def AcceptBounded : Prop :=
  sv.sessions.length < (sv.step codec crypto i).sessions.length →
    ((sv.step codec crypto i).openConnections.card : ℤ) ≤ (sv.step codec crypto i).maxConnections

instance : Decidable (AcceptBounded codec crypto sv i) := inferInstanceAs (Decidable (_ → _))

/-- The call of `on_session_disconnected` in this step, if any, is the first for its session. -/
def FirstReport : Prop := ∀ s sv₁, sv.teardown codec i = some (s, sv₁) → s ∉ sv.disconnected

/-- Moreover it finds the socket closed, or no other operation that holds the session. -/
def ClosingReport : Prop :=
  ∀ s sv₁, sv.teardown codec i = some (s, sv₁) → s ∉ sv.disconnected ∧
    ∀ x, sv₁.sessions[s]? = some x → x.socketOpen = false ∨ ¬ x.Outstanding

end Connections

section Proofs

variable {codec : Codec} {crypto : Crypto} {sv sv' : Server} {i : Input} {s t : SessionId}

/-! ## How many sessions there are -/

theorem length_le_of_core (h : ∀ t, sv.core t = none → sv'.core t = none) :
    sv'.sessions.length ≤ sv.sessions.length := by
  have hnone : sv.core sv.sessions.length = none := by
    unfold core
    rw [List.getElem?_eq_none (le_refl _)]
    rfl
  have hnone' := h _ hnone
  unfold core at hnone'
  exact List.getElem?_eq_none_iff.1 (Option.map_eq_none_iff.1 hnone')

theorem length_eq_of_core (h : ∀ t, sv'.core t = none ↔ sv.core t = none) :
    sv'.sessions.length = sv.sessions.length :=
  le_antisymm (length_le_of_core fun t => (h t).2) (length_le_of_core fun t => (h t).1)

theorem length_eq_of_map {g : SessionCore → SessionCore}
    (h : ∀ t, sv'.core t = if s = t then (sv.core t).map g else sv.core t) :
    sv'.sessions.length = sv.sessions.length := by
  refine length_eq_of_core fun t => ?_
  rw [h]
  split_ifs
  · exact Option.map_eq_none_iff
  · exact Iff.rfl

theorem lt_length_of_sessions {x : Session} (h : sv.sessions[s]? = some x) :
    s < sv.sessions.length :=
  (List.getElem?_eq_some_iff.1 h).1

/-! ## The counter in one step -/

/-- A step leaves the counters alone, accepts a connection, or reports a session. -/
inductive Counts (codec : Codec) (sv : Server) (i : Input) (sv' : Server) : Prop
  | same (calm : sv.teardown codec i = none) (length : sv'.sessions.length = sv.sessions.length)
      (disconnected : sv'.disconnected = sv.disconnected)
      (active : sv'.activeConnections = sv.activeConnections)
  | accept (calm : sv.teardown codec i = none)
      (length : sv'.sessions.length = sv.sessions.length + 1)
      (disconnected : sv'.disconnected = sv.disconnected)
      (active : sv'.activeConnections = sv.activeConnections + 1)
      (below : sv'.activeConnections ≤ sv'.maxConnections)
  | report (s : SessionId) (sv₁ : Server) (call : sv.teardown codec i = some (s, sv₁))
      (accepted : s < sv.sessions.length) (length : sv'.sessions.length = sv.sessions.length)
      (disconnected : sv'.disconnected = s :: sv.disconnected)
      (active : sv'.activeConnections = sv.activeConnections - 1)

theorem step_counts (codec : Codec) (crypto : Crypto) (sv : Server) (i : Input) :
    Counts codec sv i (sv.step codec crypto i) := by
  have hcalm := @teardown_eq_none codec sv i crypto
  cases step_effect codec crypto sv i with
  | background quiet =>
    refine .same (hcalm quiet.disconnected) (length_eq_of_core fun t => ?_) quiet.disconnected
      quiet.activeConnections
    rw [quiet.core]
  | session s x g found alive fresh step moves =>
    exact .same (hcalm moves.disconnected) (length_eq_of_map moves.core) moves.disconnected
      moves.activeConnections
  | auth s x auth found size reads state received presents authenticates =>
    exact .same (hcalm authenticates.disconnected) (length_eq_of_map authenticates.core)
      authenticates.disconnected authenticates.activeConnections
  | teardown s x sv₁ g found call alive completes fresh moves quiet =>
    refine .report s sv₁ call (lt_length_of_sessions found)
      (length_eq_of_map (core_of_teardown moves quiet)) ?_ ?_
    · rw [quiet.disconnected, disconnected_unregister, moves.disconnected]
    · rw [quiet.activeConnections, activeConnections_unregister, moves.activeConnections]
  | accept sessions sessionsByUser usersBySession below maxConnections activeConnections
      disconnected keys =>
    refine .accept (hcalm disconnected) ?_ disconnected activeConnections ?_
    · rw [sessions, List.length_append, List.length_singleton]
    · omega
  | shutdown event first core untouched sessionsByUser usersBySession activeConnections
      disconnected keys =>
    refine .same (hcalm disconnected) (length_eq_of_core fun t => ?_) disconnected
      activeConnections
    rw [core]

/-! ## The balance -/

theorem mem_unreported : t ∈ sv.unreported ↔ t < sv.sessions.length ∧ t ∉ sv.disconnected := by
  rw [unreported, Finset.mem_filter, Finset.mem_range]

theorem mem_openConnections :
    t ∈ sv.openConnections ↔ t < sv.sessions.length ∧ sv.IsOpen t := by
  rw [openConnections, Finset.mem_filter, Finset.mem_range]

/-- Only accepted sessions were reported, and the counter counts the others. -/
structure Counted (sv : Server) : Prop where
  accepted : ∀ s ∈ sv.disconnected, s < sv.sessions.length
  balanced : sv.CounterBalanced

theorem Counts.accepted (h : Counts codec sv i sv')
    (haccepted : ∀ s ∈ sv.disconnected, s < sv.sessions.length) :
    ∀ s ∈ sv'.disconnected, s < sv'.sessions.length := by
  intro t ht
  cases h with
  | same calm length disconnected active =>
    rw [length]
    exact haccepted t (disconnected ▸ ht)
  | accept calm length disconnected active below =>
    rw [length]
    exact Nat.lt_succ_of_lt (haccepted t (disconnected ▸ ht))
  | report s sv₁ call accepted length disconnected active =>
    rw [length]
    rw [disconnected] at ht
    rcases List.mem_cons.1 ht with rfl | ht
    · exact accepted
    · exact haccepted t ht

/-- A step keeps the balance exactly if it does not report a session again. -/
theorem Counts.balanced_iff (h : Counts codec sv i sv') (hcounted : Counted sv) :
    sv'.CounterBalanced ↔ sv.FirstReport codec i := by
  have hbalanced : sv.activeConnections = sv.unreported.card := hcounted.balanced
  unfold CounterBalanced
  cases h with
  | same calm length disconnected active =>
    have hsame : sv'.unreported = sv.unreported := by
      ext t
      rw [mem_unreported, mem_unreported, length, disconnected]
    refine iff_of_true (by rw [active, hsame, hbalanced]) fun s sv₁ hcall => ?_
    rw [calm] at hcall
    cases hcall
  | accept calm length disconnected active below =>
    have hmore : sv'.unreported = insert sv.sessions.length sv.unreported := by
      ext t
      rw [Finset.mem_insert, mem_unreported, mem_unreported, length, disconnected,
        Nat.lt_succ_iff_lt_or_eq]
      constructor
      · rintro ⟨hlt | rfl, ht⟩
        · exact Or.inr ⟨hlt, ht⟩
        · exact Or.inl rfl
      · rintro (rfl | ⟨hlt, ht⟩)
        · exact ⟨Or.inr rfl, fun ht => Nat.lt_irrefl _ (hcounted.accepted _ ht)⟩
        · exact ⟨Or.inl hlt, ht⟩
    have hnew : sv.sessions.length ∉ sv.unreported := fun hmem =>
      Nat.lt_irrefl _ (mem_unreported.1 hmem).1
    refine iff_of_true ?_ fun s sv₁ hcall => ?_
    · rw [active, hmore, Finset.card_insert_of_notMem hnew, hbalanced, Nat.cast_succ]
    · rw [calm] at hcall
      cases hcall
  | report s sv₁ call accepted length disconnected active =>
    have hless : sv'.unreported = sv.unreported.erase s := by
      ext t
      rw [Finset.mem_erase, mem_unreported, mem_unreported, length, disconnected,
        List.mem_cons, not_or]
      tauto
    rw [active, hless, hbalanced]
    constructor
    · rintro hcard _ _ hcall hmem
      cases call.symm.trans hcall
      rw [Finset.erase_eq_of_notMem fun h => (mem_unreported.1 h).2 hmem] at hcard
      omega
    · intro hfirst
      have hmem : s ∈ sv.unreported := mem_unreported.2 ⟨accepted, hfirst s sv₁ call⟩
      have hpos := Finset.card_pos.2 ⟨s, hmem⟩
      rw [Finset.card_erase_of_mem hmem]
      omega

theorem counted_step_iff (crypto : Crypto) (h : Counted sv) :
    Counted (sv.step codec crypto i) ↔ sv.FirstReport codec i := by
  have hcounts := step_counts codec crypto sv i
  rw [← hcounts.balanced_iff h]
  exact ⟨Counted.balanced, fun hbalanced => ⟨hcounts.accepted h.accepted, hbalanced⟩⟩

theorem counted_start (config : Config) (db : Database) : Counted (start config db) :=
  ⟨fun _ h => absurd h List.not_mem_nil, rfl⟩

/-- The counter is balanced in every state of exactly those runs that report no session twice. -/
theorem allStates_counterBalanced_iff (codec : Codec) (crypto : Crypto) (config : Config)
    (db : Database) (is : List Input) :
    AllStates (step codec crypto) CounterBalanced (start config db) is ↔
      AllSteps (step codec crypto) (FirstReport codec) (start config db) is := by
  have haccepted : AllStates (step codec crypto)
      (fun sv => ∀ s ∈ sv.disconnected, s < sv.sessions.length) (start config db) is :=
    .of_invariant (counted_start config db).accepted
      (fun sv i h => (step_counts codec crypto sv i).accepted h) is
  rw [← allStates_iff_allSteps (counted_start config db) fun _ _ h => counted_step_iff crypto h]
  exact ⟨fun h => (haccepted.and h).mono fun _ h => ⟨h.1, h.2⟩, fun h => h.mono fun _ => (·.2)⟩

/-! ## Open connections -/

theorem CoreStep.socketOpen {c c' : SessionCore} (h : CoreStep codec s sv i c c')
    (hc : c.socketOpen = false) : c'.socketOpen = false := by
  cases h with
  | session c' step =>
    cases step with
    | same | handshake | header => exact hc
    | frame => exact (readNext_eq (stopReading c)).2.2.2.2.trans hc
    | hello nonce => exact (readNext_eq (challenged nonce (stopReading c))).2.2.2.2.trans hc
    | closed => rfl
  | auth userId => exact (authenticated_eq userId c).2.2.2.2.trans hc
  | completes g completes => exact (completes.socketOpen c).trans hc

/-- A closed connection stays closed. -/
theorem not_isOpen_step (crypto : Crypto) (h : WellFormed sv) (haccepted : s < sv.sessions.length)
    (hclosed : ¬ sv.IsOpen s) : ¬ (sv.step codec crypto i).IsOpen s := by
  have hc : sv.core s = some (sv.sessions[s]).core :=
    core_of_sessions (List.getElem?_eq_getElem haccepted)
  by_cases halive : sv.Alive s
  · have hsocket : (sv.sessions[s]).core.socketOpen = false := by
      by_contra hopen
      refine hclosed ⟨?_, halive⟩
      rw [hc, Option.any_some]
      exact Bool.eq_true_of_not_eq_false hopen
    obtain ⟨c', hc', hstep⟩ := core_step codec crypto i hc
    rintro ⟨hopen, -⟩
    rw [hc', Option.any_some, hstep.socketOpen hsocket] at hopen
    cases hopen
  · exact fun hopen => (not_alive_step codec crypto i h hc halive).1 hopen.2

/-- A closing report leaves the connection closed. -/
theorem not_isOpen_of_report (crypto : Crypto) (h : WellFormed sv) {sv₁ : Server}
    (call : sv.teardown codec i = some (s, sv₁)) (hreport : sv.ClosingReport codec i) :
    ¬ (sv.step codec crypto i).IsOpen s := by
  obtain ⟨x, hx, found, -, hreg⟩ := reported_of_teardown crypto h call
  rintro ⟨hopen, halive⟩
  obtain ⟨y, hy, hout⟩ := halive.resolve_right hreg
  cases found.symm.trans hy
  rw [core_of_sessions found, Option.any_some] at hopen
  rcases (hreport s sv₁ call).2 x hx with hclosed | hidle
  · exact Bool.false_ne_true (hclosed.symm.trans hopen)
  · exact hidle hout

/-- The counter is balanced, and no reported session is open. -/
structure Bounded (sv : Server) : Prop extends Counted sv where
  wellFormed : WellFormed sv
  closed : ∀ s ∈ sv.disconnected, ¬ sv.IsOpen s

theorem bounded_start (config : Config) (db : Database) : Bounded (start config db) where
  toCounted := counted_start config db
  wellFormed := wellFormed_start config db
  closed _ h := absurd h List.not_mem_nil

theorem ClosingReport.first (h : sv.ClosingReport codec i) : sv.FirstReport codec i :=
  fun s sv₁ call => (h s sv₁ call).1

theorem bounded_step (codec : Codec) (crypto : Crypto) (i : Input) (h : Bounded sv)
    (hreport : sv.ClosingReport codec i) : Bounded (sv.step codec crypto i) where
  toCounted := (counted_step_iff crypto h.toCounted).2 hreport.first
  wellFormed := wellFormed_step codec crypto i h.wellFormed
  closed t ht := by
    by_cases hbefore : t ∈ sv.disconnected
    · exact not_isOpen_step crypto h.wellFormed (h.accepted t hbefore) (h.closed t hbefore)
    · obtain ⟨sv₁, call⟩ := (mem_disconnected_step codec crypto i ht).resolve_left hbefore
      exact not_isOpen_of_report crypto h.wellFormed call hreport

/-- The counter bounds the open connections. -/
theorem Bounded.openConnections_le (h : Bounded sv) :
    (sv.openConnections.card : ℤ) ≤ sv.activeConnections := by
  have hbalanced : sv.activeConnections = sv.unreported.card := h.balanced
  rw [hbalanced]
  refine Nat.cast_le.2 (Finset.card_le_card fun t ht => ?_)
  obtain ⟨haccepted, hopen⟩ := mem_openConnections.1 ht
  exact mem_unreported.2 ⟨haccepted, fun hreported => h.closed t hreported hopen⟩

theorem acceptBounded_of_bounded (h : Bounded (sv.step codec crypto i)) :
    AcceptBounded codec crypto sv i := by
  intro hmore
  cases step_counts codec crypto sv i with
  | same calm length => omega
  | accept calm length disconnected active below => exact h.openConnections_le.trans below
  | report s sv₁ call accepted length => omega

/-- `active_connections_` is the number of accepted sessions without a call of
`on_session_disconnected` in every state of exactly those runs in which no call is the second one
for its session.  If moreover every call finds the connection closed or nothing else outstanding on
it, no accepted connection makes more than `max_connections_` open ones. -/
theorem connections_counted_iff (codec : Codec) (crypto : Crypto) (config : Config) (db : Database)
    (is : List Input) :
    (AllStates (step codec crypto)
        (fun sv => sv.activeConnections = sv.unreported.card ∧ 0 ≤ sv.activeConnections)
        (start config db) is ↔
      AllSteps (step codec crypto) (FirstReport codec) (start config db) is) ∧
    (AllSteps (step codec crypto) (ClosingReport codec) (start config db) is →
      AllSteps (step codec crypto) (AcceptBounded codec crypto) (start config db) is) := by
  constructor
  · rw [← allStates_counterBalanced_iff codec crypto]
    refine ⟨fun h => h.mono fun _ => (·.1), fun h => h.mono fun sv hbalanced => ⟨hbalanced, ?_⟩⟩
    rw [hbalanced]
    exact Nat.cast_nonneg _
  · intro hreports
    have hbounded : AllStates (step codec crypto) Bounded (start config db) is :=
      .of_steps (bounded_start config db) (fun _ i h => bounded_step codec crypto i h) hreports
    exact .of_states hbounded hreports fun _ i h hreport =>
      acceptBounded_of_bounded (bounded_step codec crypto i h hreport)

/-! ## A session that is reported twice -/

/-- One connection at a time. -/
def oneConnection : Config := ⟨1, 10, 10, []⟩

/-- The first client announces an oversized frame and is replaced by the second one; then the
`ERROR` to the first cannot be sent, and the handshake with the second fails. -/
def oversizedFrameRun : List Input :=
  [.accept (str "a"), .handshakeDone 0 true, .headerRead 0 (some 65537), .accept (str "b"),
    .writeDone 0 false, .handshakeDone 1 false].map Event.atZero

/-- Two connections are open after the second one was accepted, and the counter ends at `-1`. -/
theorem not_connectionsCounted_oversizedFrameRun :
    ¬ AllStates (step .proto3 (.ofSignatures []))
        (fun sv => sv.activeConnections = sv.unreported.card ∧ 0 ≤ sv.activeConnections)
        (start oneConnection .empty) oversizedFrameRun ∧
      ¬ AllSteps (step .proto3 (.ofSignatures []))
        (AcceptBounded .proto3 (.ofSignatures []))
        (start oneConnection .empty) oversizedFrameRun := by
  constructor
  · intro hall
    have hactive : (final (step .proto3 (.ofSignatures []))
        (start oneConnection .empty) oversizedFrameRun).activeConnections = -1 := by decide
    have hnonneg := hall.final.2
    rw [hactive] at hnonneg
    exact absurd hnonneg (by decide)
  · intro hall
    have haccept := allSteps_iff.1 hall (oversizedFrameRun.take 3)
      (Event.accept (str "b")).atZero (oversizedFrameRun.drop 4) rfl
    exact absurd haccept (by decide)

end Proofs

end Server

end Ircord

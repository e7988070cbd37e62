import IrcordServer.RateWindows
import IrcordServer.Run

/-!
# A limiter in a running system

The system makes a limiter at some point, asks it now and then, and otherwise leaves it alone.  What
one step may do with it is `Meters`; `rate_run` says what comes of it over a run.
-/

open Run

namespace Ircord.RateLimiter

/-! ## A limit of either sign -/

/-- The limit was `maxTokens` from the start, and these are the calls that were allowed. -/
def Allowed (l : RateLimiter) (maxTokens : ℤ) (window : Time) (times : List Time) : Prop :=
  (∃ past cur, past ++ cur = times ∧ Windows l maxTokens window past cur) ∨
    (l.maxTokens = maxTokens ∧ maxTokens ≤ l.count ∧ maxTokens < 0 ∧ times = [])

/-- The time of a call, if it was allowed. -/
def allowedAt (l : RateLimiter) (now : Time) : Option Time :=
  if (l.allow now).1 then some now else none

theorem windowStart_allow (l : RateLimiter) (now : Time) :
    (l.allow now).2.windowStart = l.windowStart ∨ (l.allow now).2.windowStart = now := by
  unfold allow
  dsimp only
  split_ifs
  · exact Or.inr rfl
  · exact Or.inr rfl
  · exact Or.inl rfl
  · exact Or.inl rfl

namespace Allowed

variable {l : RateLimiter} {maxTokens : ℤ} {window : Time} {times : List Time}

theorem new (maxTokens : ℤ) (window now : Time) :
    Allowed (RateLimiter.new maxTokens window now) maxTokens window [] := by
  by_cases h : 0 ≤ maxTokens
  · exact Or.inl ⟨[], [], rfl, .new h now⟩
  · exact Or.inr ⟨rfl, le_of_lt (not_le.1 h), not_le.1 h, rfl⟩

theorem allow (h : Allowed l maxTokens window times) {now : Time} (hw : 0 < window)
    (hnow : l.windowStart ≤ now) :
    Allowed (l.allow now).2 maxTokens window (times ++ (l.allowedAt now).toList) := by
  unfold allowedAt
  rcases h with ⟨past, cur, rfl, hwindows⟩ | ⟨hmax, hcount, hneg, rfl⟩
  · obtain ⟨past', cur', heq, hwindows', -⟩ := hwindows.allow hw hnow
    refine Or.inl ⟨past', cur', heq.trans (congrArg (past ++ cur ++ ·) ?_), hwindows'⟩
    split_ifs <;> rfl
  · have hrefreshed : (l.refreshed now).maxTokens = maxTokens ∧
        maxTokens ≤ (l.refreshed now).count := by
      unfold refreshed
      split_ifs
      · exact ⟨hmax, le_of_lt hneg⟩
      · exact ⟨hmax, hcount⟩
    rw [allow_eq, if_pos (by rw [hrefreshed.1]; exact hrefreshed.2)]
    exact Or.inr ⟨hrefreshed.1, hrefreshed.2, hneg, rfl⟩

/-- In an interval of the length of a window. -/
theorem interval (h : Allowed l maxTokens window times) (u : Time) :
    ((times.countP fun t => u ≤ t ∧ t ≤ u + window : ℕ) : ℤ) ≤ 2 * max maxTokens 0 := by
  rcases h with ⟨past, cur, rfl, hwindows⟩ | ⟨-, -, hneg, rfl⟩
  · have := hwindows.interval u
    omega
  · rw [List.countP_nil]
    omega

/-- Before a call that is refused. -/
theorem refused (h : Allowed l maxTokens window times) {now : Time} (hw : 0 < window)
    (hnow : l.windowStart ≤ now) (hrefused : l.allowedAt now = none) :
    maxTokens ≤ ((times.countP fun t => now - window < t : ℕ) : ℤ) := by
  rcases h with ⟨past, cur, rfl, hwindows⟩ | ⟨-, -, hneg, rfl⟩
  · refine hwindows.denied hw hnow (Bool.eq_false_iff.2 fun hallowed => ?_)
    unfold allowedAt at hrefused
    rw [if_pos hallowed] at hrefused
    cases hrefused
  · rw [List.countP_nil]
    exact le_of_lt hneg

end Allowed

/-! ## A limiter in a run -/

/-- What a step at the time `now` does with a limiter: it may make it, with the limit `rate`, and
it may ask it. -/
inductive Meters (rate : ℤ) (window now : Time) :
    Option RateLimiter → Option RateLimiter → Option RateLimiter → Prop
  | idle (limiter : Option RateLimiter) : Meters rate window now limiter none limiter
  | makes : Meters rate window now none none (some (.new rate window now))
  | asks (l : RateLimiter) : Meters rate window now (some l) (some l) (some (l.allow now).2)
  | makesAndAsks : Meters rate window now none (some (.new rate window now))
      (some ((RateLimiter.new rate window now).allow now).2)

/-- The limiter has a limit from `low` to `high`, and these are the calls it has allowed. -/
def Metered (low high : ℤ) (window : Time) (clocks times : List Time) :
    Option RateLimiter → Prop
  | none => times = []
  | some l => l.windowStart ∈ clocks ∧
      ∃ maxTokens, low ≤ maxTokens ∧ maxTokens ≤ high ∧ l.Allowed maxTokens window times

namespace Metered

variable {low high rate : ℤ} {window now : Time} {clocks times : List Time}
  {before asked after : Option RateLimiter}

theorem allow {l : RateLimiter} {maxTokens : ℤ} (hw : 0 < window)
    (hrate : low ≤ maxTokens ∧ maxTokens ≤ high) (h : l.Allowed maxTokens window times)
    (hstart : l.windowStart ∈ clocks ++ [now]) (hclock : ∀ t ∈ clocks, t ≤ now) :
    Metered low high window (clocks ++ [now]) (times ++ (l.allowedAt now).toList)
      (some (l.allow now).2) := by
  have hle : l.windowStart ≤ now := by
    rcases List.mem_append.1 hstart with hold | hnew
    · exact hclock _ hold
    · exact le_of_eq (List.mem_singleton.1 hnew)
  refine ⟨?_, maxTokens, hrate.1, hrate.2, h.allow hw hle⟩
  rcases windowStart_allow l now with hsame | hnow
  · rw [hsame]
    exact hstart
  · rw [hnow]
    exact List.mem_append_right _ (List.mem_singleton_self now)

theorem step (hw : 0 < window) (hmeters : Meters rate window now before asked after)
    (hrate : low ≤ rate ∧ rate ≤ high) (hclock : ∀ t ∈ clocks, t ≤ now)
    (h : Metered low high window clocks times before) :
    Metered low high window (clocks ++ [now])
      (times ++ (asked.bind (·.allowedAt now)).toList) after := by
  have hnow : now ∈ clocks ++ [now] := List.mem_append_right _ (List.mem_singleton_self now)
  cases hmeters with
  | idle =>
    rw [Option.bind_none, Option.toList_none, List.append_nil]
    cases before with
    | none => exact h
    | some l => exact ⟨List.mem_append_left _ h.1, h.2⟩
  | makes =>
    rw [show times = [] from h]
    exact ⟨hnow, rate, hrate.1, hrate.2, .new rate window now⟩
  | asks l =>
    obtain ⟨hstart, maxTokens, hlow, hhigh, hallowed⟩ := h
    exact allow hw ⟨hlow, hhigh⟩ hallowed (List.mem_append_left _ hstart) hclock
  | makesAndAsks =>
    rw [show times = [] from h]
    exact allow hw hrate (.new rate window now) hnow hclock

end Metered

section Runs

variable {σ ι : Type} {step : σ → ι → σ} {I : σ → Prop} {limiter : σ → Option RateLimiter}
  {asked : σ → ι → Option RateLimiter} {rate : σ → ℤ} {clock : ι → Time} {s₀ : σ}
  {low high : ℤ} {window : Time}

/-- The time of the call that a step makes, if it was allowed. -/
def admittedAt (asked : σ → ι → Option RateLimiter) (clock : ι → Time) (s : σ) (i : ι) :
    Option Time :=
  (asked s i).bind (·.allowedAt (clock i))

variable (limiter) in
theorem metered_run (hw : 0 < window) (h₀ : limiter s₀ = none) (hI₀ : I s₀)
    (hI : ∀ s i, I s → I (step s i))
    (hmeters : ∀ s i, I s →
      Meters (rate s) window (clock i) (limiter s) (asked s i) (limiter (step s i)))
    (is : List ι) (hclock : (is.map clock).Pairwise (· ≤ ·))
    (hrate : AllStates step (fun s => low ≤ rate s ∧ rate s ≤ high) s₀ is) :
    Metered low high window (is.map clock) (observe step (admittedAt asked clock) s₀ is)
      (limiter (final step s₀ is)) := by
  let H (is : List ι) (s : σ) : Prop := I s ∧ ((is.map clock).Pairwise (· ≤ ·) →
    AllStates step (fun s => low ≤ rate s ∧ rate s ≤ high) s₀ is →
      Metered low high window (is.map clock) (observe step (admittedAt asked clock) s₀ is)
        (limiter s))
  have hstart : H [] s₀ := by
    refine ⟨hI₀, fun _ _ => ?_⟩
    rw [h₀]
    exact rfl
  have hstep (is : List ι) (i : ι) (h : H is (final step s₀ is)) :
      H (is ++ [i]) (step (final step s₀ is) i) := by
    refine ⟨hI _ i h.1, fun hclock hrate => ?_⟩
    rw [List.map_append, List.map_singleton] at hclock ⊢
    obtain ⟨hbefore, -, hlater⟩ := List.pairwise_append.1 hclock
    have hrates : AllStates step (fun s => low ≤ rate s ∧ rate s ≤ high) s₀ is :=
      allStates_iff.2 fun pre post hsplit =>
        allStates_iff.1 hrate pre (post ++ [i]) (by rw [hsplit, List.append_assoc])
    rw [observe_snoc]
    exact (h.2 hbefore hrates).step hw (hmeters _ i h.1) hrates.final
      fun t ht => hlater t ht _ (List.mem_singleton_self _)
  exact (history_induction hstart hstep is).2 hclock hrate

variable (limiter) in
/-- In a run whose clock does not go back and whose limiters have a limit from `low` to `high`:
at most twice the limit in an interval of the length of a window, and no refusal without as many
admitted calls just before. -/
theorem rate_run (hw : 0 < window) (h₀ : limiter s₀ = none) (hI₀ : I s₀)
    (hI : ∀ s i, I s → I (step s i))
    (hmeters : ∀ s i, I s →
      Meters (rate s) window (clock i) (limiter s) (asked s i) (limiter (step s i)))
    (is : List ι) (hclock : (is.map clock).Pairwise (· ≤ ·))
    (hrate : AllStates step (fun s => low ≤ rate s ∧ rate s ≤ high) s₀ is) :
    (∀ u, (((observe step (admittedAt asked clock) s₀ is).countP
        fun t => u ≤ t ∧ t ≤ u + window : ℕ) : ℤ) ≤ 2 * max high 0) ∧
      ∀ pre i post, is = pre ++ i :: post →
        ∀ l, asked (final step s₀ pre) i = some l → l.allowedAt (clock i) = none →
          low ≤ (((observe step (admittedAt asked clock) s₀ pre).countP
            fun t => clock i - window < t : ℕ) : ℤ) := by
  constructor
  · intro u
    have hmetered := metered_run limiter hw h₀ hI₀ hI hmeters is hclock hrate
    cases hlimiter : limiter (final step s₀ is) with
    | none =>
      rw [hlimiter] at hmetered
      rw [show observe step (admittedAt asked clock) s₀ is = [] from hmetered, List.countP_nil]
      omega
    | some l =>
      rw [hlimiter] at hmetered
      obtain ⟨-, maxTokens, -, hhigh, hallowed⟩ := hmetered
      have := hallowed.interval u
      omega
  · intro pre i post hsplit l hasked hrefused
    have hrates : AllStates step (fun s => low ≤ rate s ∧ rate s ≤ high) s₀ pre :=
      allStates_iff.2 fun pre' post' hsplit' =>
        allStates_iff.1 hrate pre' (post' ++ i :: post) (by rw [hsplit, hsplit', List.append_assoc])
    rw [hsplit, List.map_append, List.map_cons] at hclock
    obtain ⟨hbefore, -, hlater⟩ := List.pairwise_append.1 hclock
    have hmetered := metered_run limiter hw h₀ hI₀ hI hmeters pre hbefore hrates
    have hinv : I (final step s₀ pre) := (AllStates.of_invariant hI₀ (fun s i => hI s i) pre).final
    have hnext := hmeters _ i hinv
    rw [hasked] at hnext
    generalize limiter (step (final step s₀ pre) i) = after at hnext
    cases hlimiter : limiter (final step s₀ pre) with
    | none =>
      rw [hlimiter] at hmetered hnext
      cases hnext with
      | makesAndAsks =>
        rw [show observe step (admittedAt asked clock) s₀ pre = [] from hmetered]
        exact hrates.final.1.trans ((Allowed.new (rate (final step s₀ pre)) window _).refused hw
          (le_refl _) hrefused)
    | some l' =>
      rw [hlimiter] at hmetered hnext
      cases hnext with
      | asks =>
        obtain ⟨hstart, maxTokens, hlow, -, hallowed⟩ := hmetered
        exact hlow.trans (hallowed.refused hw
          (hlater _ hstart _ List.mem_cons_self) hrefused)

end Runs

end Ircord.RateLimiter

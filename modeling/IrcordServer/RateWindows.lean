import IrcordServer.RateLimiter
import Mathlib.Data.List.Basic
import Mathlib.Tactic.Linarith

/-!
# What the fixed windows of the limiter allow

A window opens at the first call after the one before it has ended, so two windows start at least
`window` apart, and no interval of that length meets more than two of them.
-/

namespace Ircord.RateLimiter

/-- The limiter after calls of `allow` at the times `ts`. -/
def run (l : RateLimiter) (ts : List Time) : RateLimiter := ts.foldl (fun l t => (l.allow t).2) l

/-- The times of the calls that were allowed. -/
def allowedTimes (l : RateLimiter) : List Time → List Time
  | [] => []
  | t :: ts =>
    if (l.allow t).1 then t :: allowedTimes (l.allow t).2 ts else allowedTimes (l.allow t).2 ts

theorem allowedTimes_cons (l : RateLimiter) (t : Time) (ts : List Time) :
    l.allowedTimes (t :: ts) =
      (if (l.allow t).1 then [t] else []) ++ (l.allow t).2.allowedTimes ts := by
  rw [allowedTimes]
  split <;> rfl

theorem allowedTimes_sublist (l : RateLimiter) (ts : List Time) :
    (l.allowedTimes ts).Sublist ts := by
  induction ts generalizing l with
  | nil => exact List.Sublist.refl _
  | cons t ts ih =>
    rw [allowedTimes]
    split
    · exact (ih _).cons_cons t
    · exact (ih _).cons t

/-- `allow` first opens a window if the last one has ended, and then counts. -/
def refreshed (l : RateLimiter) (now : Time) : RateLimiter :=
  if now - l.windowStart ≥ l.window then { l with windowStart := now, count := 0 } else l

theorem allow_eq (l : RateLimiter) (now : Time) :
    l.allow now = if (l.refreshed now).count ≥ (l.refreshed now).maxTokens
      then (false, l.refreshed now)
      else (true, { l.refreshed now with count := (l.refreshed now).count + 1 }) := rfl

/-! ## Past windows and the current one -/

/-- The allowed calls of the windows before the current one, and those of the current one. -/
structure Windows (l : RateLimiter) (maxTokens : ℤ) (window : Time) (past cur : List Time) :
    Prop where
  limit : l.maxTokens = maxTokens
  length : l.window = window
  counted : l.count = cur.length
  withinLimit : (cur.length : ℤ) ≤ maxTokens
  inWindow : ∀ t ∈ cur, l.windowStart ≤ t ∧ t < l.windowStart + window
  before : ∀ t ∈ past, t < l.windowStart
  lastWindow : ((past.countP fun t => l.windowStart - window ≤ t : ℕ) : ℤ) ≤ maxTokens
  spaced : ∀ u, ((past.countP fun t => u ≤ t ∧ t ≤ u + window : ℕ) : ℤ) ≤ 2 * maxTokens

namespace Windows

variable {l : RateLimiter} {maxTokens : ℤ} {window : Time} {past cur : List Time}

theorem new (h : 0 ≤ maxTokens) (t₀ : Time) :
    Windows (RateLimiter.new maxTokens window t₀) maxTokens window [] [] where
  limit := rfl
  length := rfl
  counted := rfl
  withinLimit := h
  inWindow := by simp
  before := by simp
  lastWindow := h
  spaced _ := by simpa using h

theorem maxTokens_nonneg (h : Windows l maxTokens window past cur) : 0 ≤ maxTokens :=
  le_trans (Int.natCast_nonneg _) h.withinLimit

/-- An interval that reaches into the current window sees only the window before it as well. -/
theorem interval (h : Windows l maxTokens window past cur) (u : Time) :
    (((past ++ cur).countP fun t => u ≤ t ∧ t ≤ u + window : ℕ) : ℤ) ≤ 2 * maxTokens := by
  rw [List.countP_append]
  by_cases hu : u + window < l.windowStart
  · have hcur : cur.countP (fun t => u ≤ t ∧ t ≤ u + window) = 0 := by
      rw [List.countP_eq_zero]
      intro t ht
      have := (h.inWindow t ht).1
      simp only [decide_eq_true_eq]
      rintro ⟨-, ht⟩
      linarith
    rw [hcur]
    exact h.spaced u
  · have hpast : past.countP (fun t => u ≤ t ∧ t ≤ u + window) ≤
        past.countP (fun t => l.windowStart - window ≤ t) := by
      apply List.countP_mono_left
      intro t _ ht
      simp only [decide_eq_true_eq] at ht ⊢
      linarith [ht.1]
    have hcur : cur.countP (fun t => u ≤ t ∧ t ≤ u + window) ≤ cur.length := List.countP_le_length
    have := h.lastWindow
    have := h.withinLimit
    push_cast
    omega

/-- Opening a window puts the calls of the one before it behind. -/
theorem opened (h : Windows l maxTokens window past cur) {now : Time} (hw : 0 < window)
    (hnow : window ≤ now - l.windowStart) :
    Windows { l with windowStart := now, count := 0 } maxTokens window (past ++ cur) [] where
  limit := h.limit
  length := h.length
  counted := rfl
  withinLimit := h.maxTokens_nonneg
  inWindow := by simp
  before t ht := by
    obtain ht | ht := List.mem_append.1 ht
    · have := h.before t ht
      simp only
      linarith
    · have := h.inWindow t ht
      simp only
      linarith
  lastWindow := by
    have hpast : past.countP (fun t => now - window ≤ t) = 0 := by
      rw [List.countP_eq_zero]
      intro t ht
      have := h.before t ht
      simp only [decide_eq_true_eq]
      linarith
    have hcur : cur.countP (fun t => now - window ≤ t) ≤ cur.length := List.countP_le_length
    have := h.withinLimit
    simp only [List.countP_append, hpast]
    omega
  spaced := h.interval

theorem refreshed (h : Windows l maxTokens window past cur) {now : Time} (hw : 0 < window)
    (hnow : l.windowStart ≤ now) :
    ∃ past' cur', past' ++ cur' = past ++ cur ∧
      Windows (l.refreshed now) maxTokens window past' cur' ∧
      (l.refreshed now).windowStart ≤ now ∧ now < (l.refreshed now).windowStart + window := by
  rw [RateLimiter.refreshed, h.length]
  split
  · have hopened := h.opened hw ‹_›
    exact ⟨past ++ cur, [], List.append_nil _, h.length ▸ hopened, le_refl _,
      by simp only; linarith⟩
  · exact ⟨past, cur, rfl, h, hnow, by linarith⟩

theorem counts (h : Windows l maxTokens window past cur) {now : Time}
    (hlow : l.windowStart ≤ now) (hhigh : now < l.windowStart + window)
    (hcount : l.count < l.maxTokens) :
    Windows { l with count := l.count + 1 } maxTokens window past (cur ++ [now]) where
  limit := h.limit
  length := h.length
  counted := by simp [h.counted]
  withinLimit := by
    have := h.limit
    have := h.counted
    simp only [List.length_append, List.length_singleton]
    omega
  inWindow t ht := by
    obtain ht | ht := List.mem_append.1 ht
    · exact h.inWindow t ht
    · obtain rfl := List.mem_singleton.1 ht
      exact ⟨hlow, hhigh⟩
  before := h.before
  lastWindow := h.lastWindow
  spaced := h.spaced

theorem allow (h : Windows l maxTokens window past cur) {now : Time} (hw : 0 < window)
    (hnow : l.windowStart ≤ now) :
    ∃ past' cur', past' ++ cur' = past ++ cur ++ (if (l.allow now).1 then [now] else []) ∧
      Windows (l.allow now).2 maxTokens window past' cur' ∧ (l.allow now).2.windowStart ≤ now := by
  obtain ⟨past', cur', heq, hr, hlow, hhigh⟩ := h.refreshed hw hnow
  rw [allow_eq]
  split
  · exact ⟨past', cur', by simp [heq], hr, hlow⟩
  · have hcount : (l.refreshed now).count < (l.refreshed now).maxTokens := by omega
    refine ⟨past', cur' ++ [now], ?_, hr.counts hlow hhigh hcount, hlow⟩
    simp only [if_true, ← List.append_assoc, heq]

/-- A refused call finds the current window full. -/
theorem denied (h : Windows l maxTokens window past cur) {now : Time} (hw : 0 < window)
    (hnow : l.windowStart ≤ now) (hd : (l.allow now).1 = false) :
    maxTokens ≤ (((past ++ cur).countP fun t => now - window < t : ℕ) : ℤ) := by
  obtain ⟨past', cur', heq, hr, hlow, hhigh⟩ := h.refreshed hw hnow
  have hfull : maxTokens ≤ cur'.length := by
    rw [allow_eq] at hd
    split at hd
    · have := hr.limit
      have := hr.counted
      omega
    · cases hd
  have hcur : cur'.countP (fun t => now - window < t) = cur'.length := by
    rw [List.countP_eq_length]
    intro t ht
    have := (hr.inWindow t ht).1
    simp only [decide_eq_true_eq]
    linarith
  rw [← heq, List.countP_append, hcur]
  push_cast
  omega

/-- After any number of calls the windows are those of all the calls that were allowed. -/
theorem run (h : Windows l maxTokens window past cur) (hw : 0 < window) :
    ∀ {ts : List Time}, (l.windowStart :: ts).Pairwise (· ≤ ·) →
      ∃ past' cur', past' ++ cur' = past ++ cur ++ l.allowedTimes ts ∧
        Windows (l.run ts) maxTokens window past' cur' ∧
        ∀ t, (∀ t' ∈ l.windowStart :: ts, t' ≤ t) → (l.run ts).windowStart ≤ t := by
  intro ts
  induction ts generalizing l past cur with
  | nil =>
    intro _
    exact ⟨past, cur, (List.append_nil _).symm, h, fun t ht => ht l.windowStart (by simp)⟩
  | cons t ts ih =>
    intro hs
    obtain ⟨hstart, hts⟩ := List.pairwise_cons.1 hs
    obtain ⟨past', cur', heq, hstep, hle⟩ := h.allow hw (hstart t (by simp))
    have hs' : ((l.allow t).2.windowStart :: ts).Pairwise (· ≤ ·) := by
      obtain ⟨ht, hts⟩ := List.pairwise_cons.1 hts
      exact List.pairwise_cons.2 ⟨fun t' ht' => le_trans hle (ht t' ht'), hts⟩
    obtain ⟨past'', cur'', heq', hrun, hlast⟩ := ih hstep hs'
    refine ⟨past'', cur'', ?_, hrun, fun t' ht' => hlast t' fun t'' ht'' => ?_⟩
    · rw [heq', heq, allowedTimes_cons, List.append_assoc]
    · obtain rfl | ht'' := List.mem_cons.1 ht''
      · exact le_trans hle (ht' t (by simp))
      · exact ht' t'' (by simp [ht''])

end Windows

/-! ## Any sequence of calls -/

/-- At most twice the limit in any interval of the length of a window, and no refusal without as
many allowed calls within the last `window`. -/
theorem allow_bounded_and_justified {maxTokens : ℤ} {window t₀ : Time} {ts : List Time}
    (hm : 0 ≤ maxTokens) (hw : 0 < window) (hs : (t₀ :: ts).Pairwise (· ≤ ·)) :
    (∀ u,
      (((new maxTokens window t₀).allowedTimes ts).countP (fun t => u ≤ t ∧ t < u + window) : ℤ) ≤
        2 * maxTokens ∧
      (((new maxTokens window t₀).allowedTimes ts).countP (fun t => u < t ∧ t ≤ u + window) : ℤ) ≤
        2 * maxTokens) ∧
    ∀ pre t post, ts = pre ++ t :: post →
      (((new maxTokens window t₀).run pre).allow t).1 = false →
        maxTokens ≤
          ((new maxTokens window t₀).allowedTimes pre).countP
            (fun t' => t - window < t' ∧ t' ≤ t) := by
  refine ⟨fun u => ?_, fun pre t post hts hd => ?_⟩
  · obtain ⟨past, cur, heq, hrun, -⟩ := (Windows.new hm t₀).run hw hs
    have h := hrun.interval u
    rw [heq, List.nil_append, List.nil_append] at h
    refine ⟨le_trans (Int.ofNat_le.2 ?_) h, le_trans (Int.ofNat_le.2 ?_) h⟩ <;>
    · apply List.countP_mono_left
      intro t _ ht
      simp only [decide_eq_true_eq] at ht ⊢
      obtain ⟨h1, h2⟩ := ht
      constructor <;> linarith
  · rw [hts, ← List.cons_append, List.pairwise_append] at hs
    obtain ⟨hpre, -, hle⟩ := hs
    have hle : ∀ t' ∈ t₀ :: pre, t' ≤ t := fun t' ht' => hle t' ht' t (by simp)
    obtain ⟨past, cur, heq, hrun, hlast⟩ := (Windows.new hm t₀).run hw hpre
    have h := hrun.denied hw (hlast t hle) hd
    rw [heq, List.nil_append, List.nil_append] at h
    refine le_trans h (Int.ofNat_le.2 (List.countP_mono_left fun t' ht' hlt => ?_))
    have := hle t' (List.mem_cons_of_mem _ ((allowedTimes_sublist _ _).subset ht'))
    simp only [decide_eq_true_eq] at hlt ⊢
    exact ⟨hlt, this⟩

theorem allow_bounded_and_justified_burst :
    (∀ u : Time, (((new 1 10 0).allowedTimes [0, 9, 10, 12]).countP
        (fun t => u ≤ t ∧ t < u + 10) : ℤ) ≤ 2 * 1 ∧
      (((new 1 10 0).allowedTimes [0, 9, 10, 12]).countP
        (fun t => u < t ∧ t ≤ u + 10) : ℤ) ≤ 2 * 1) ∧
    1 ≤ (((new 1 10 0).allowedTimes [0]).countP (fun t' => 9 - 10 < t' ∧ t' ≤ 9) : ℤ) := by
  obtain ⟨h, hd⟩ := @allow_bounded_and_justified 1 10 0
    [0, 9, 10, 12] (by decide) (by decide) (by decide)
  exact ⟨h, hd [0] 9 [10, 12] rfl (by decide)⟩

end Ircord.RateLimiter

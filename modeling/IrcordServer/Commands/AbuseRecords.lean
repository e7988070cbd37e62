import IrcordServer.Commands.Handler
import Mathlib.Tactic.Linarith

/-!
# The counting of violations

A record counts from a first violation on.  A violation more than `kViolationWindow` after that
one drops the whole count and starts again at one, also what was counted a moment ago.
-/

open Container

namespace Ircord

namespace CommandHandler

/-! ## One violation -/

/-- The record that `track_abuse` leaves. -/
def tracked (record : Option AbuseRecord) (now : Time) : AbuseRecord :=
  let record := record.getD ⟨0, now, 0, false⟩
  let record :=
    if now - record.firstViolation > violationWindow then
      { record with violations := 0, firstViolation := now, banned := false }
    else record
  let record := { record with violations := record.violations + 1, lastViolation := now }
  if record.violations ≥ maxViolations then { record with banned := true } else record

theorem abuseRecords_trackAbuse (h : CommandHandler) (now : Time) (userId : Str) :
    (h.trackAbuse now userId).2.abuseRecords =
      h.abuseRecords.insert userId (tracked (h.abuseRecords.lookup userId) now) := by
  unfold trackAbuse tracked
  dsimp only
  split_ifs <;> rfl

theorem lookup_trackAbuse (h : CommandHandler) (now : Time) (userId : Str) :
    (h.trackAbuse now userId).2.abuseRecords.lookup userId =
      some (tracked (h.abuseRecords.lookup userId) now) := by
  rw [abuseRecords_trackAbuse]
  exact AList.lookup_insert _

theorem violationWindow_nonneg : 0 ≤ violationWindow := by decide

/-- A violation outside of a window opens one. -/
theorem tracked_opens {record : Option AbuseRecord} {now : Time}
    (hout : ∀ r, record = some r → violationWindow < now - r.firstViolation) :
    tracked record now = ⟨1, now, now, false⟩ := by
  unfold tracked
  cases record with
  | none =>
    have hin : ¬ now - now > violationWindow := by
      have := violationWindow_nonneg
      linarith
    simp only [Option.getD_none, if_neg hin]
    rfl
  | some r =>
    simp only [Option.getD_some, if_pos (hout r rfl)]
    rfl

/-- A record that says banned has counted up to the limit. -/
def CountedBan (record : Option AbuseRecord) : Prop :=
  ∀ r, record = some r → r.banned = true → maxViolations ≤ r.violations

/-- A violation within the window counts on. -/
theorem tracked_counts {r : AbuseRecord} (hr : CountedBan (some r)) {now : Time}
    (hin : now - r.firstViolation ≤ violationWindow) :
    tracked (some r) now =
      ⟨r.violations + 1, r.firstViolation, now, decide (maxViolations ≤ r.violations + 1)⟩ := by
  unfold tracked
  simp only [Option.getD_some, if_neg (Int.not_lt.2 hin)]
  by_cases hmax : maxViolations ≤ r.violations + 1
  · simp [hmax]
  · have hb : r.banned = false :=
      Bool.eq_false_iff.2 fun hb => hmax (le_trans (hr r rfl hb) (Nat.le_succ _))
    simp [hmax, hb]

theorem tracked_cases {record : Option AbuseRecord} (hc : CountedBan record) (now : Time) :
    (∃ r, record = some r ∧ now - r.firstViolation ≤ violationWindow ∧
      tracked record now =
        ⟨r.violations + 1, r.firstViolation, now, decide (maxViolations ≤ r.violations + 1)⟩) ∨
    tracked record now = ⟨1, now, now, false⟩ := by
  by_cases hin : ∃ r, record = some r ∧ now - r.firstViolation ≤ violationWindow
  · obtain ⟨r, rfl, hin⟩ := hin
    exact Or.inl ⟨r, rfl, hin, tracked_counts hc hin⟩
  · exact Or.inr (tracked_opens fun r hr => Int.not_le.1 fun hle => hin ⟨r, hr, hle⟩)

theorem countedBan_tracked {record : Option AbuseRecord} (hc : CountedBan record) (now : Time) :
    CountedBan (some (tracked record now)) := by
  intro r hr
  obtain rfl := Option.some.inj hr
  obtain ⟨r, -, -, e⟩ | e := tracked_cases hc now
  · rw [e]
    exact of_decide_eq_true
  · rw [e]
    intro hb
    cases hb

/-! ## Sequences of violations -/

/-- The handler after violations of the user at the times `ts`. -/
def violations (h : CommandHandler) (userId : Str) (ts : List Time) : CommandHandler :=
  ts.foldl (fun h t => (h.trackAbuse t userId).2) h

/-- Whether the record of the user says that it is banned. -/
def banned (h : CommandHandler) (userId : Str) : Bool :=
  (h.abuseRecords.lookup userId).any fun record => record.banned

/-- Whether the user is banned after some of the violations at the times `ts`. -/
def bannedBy (h : CommandHandler) (userId : Str) : List Time → Bool
  | [] => false
  | t :: ts =>
    (h.trackAbuse t userId).2.banned userId || bannedBy (h.trackAbuse t userId).2 userId ts

/-- `bannedBy`, read off the record. -/
def caught (record : Option AbuseRecord) : List Time → Bool
  | [] => false
  | t :: ts => (tracked record t).banned || caught (some (tracked record t)) ts

theorem bannedBy_eq_caught (h : CommandHandler) (userId : Str) (ts : List Time) :
    h.bannedBy userId ts = caught (h.abuseRecords.lookup userId) ts := by
  induction ts generalizing h with
  | nil => rfl
  | cons t ts ih => rw [bannedBy, caught, ih, banned, lookup_trackAbuse, Option.any_some]

theorem countedBan_violations {h : CommandHandler} {userId : Str}
    (hc : CountedBan (h.abuseRecords.lookup userId)) (ts : List Time) :
    CountedBan ((h.violations userId ts).abuseRecords.lookup userId) := by
  induction ts generalizing h with
  | nil => exact hc
  | cons t ts ih =>
    apply ih
    rw [lookup_trackAbuse]
    exact countedBan_tracked hc t

/-! ## Five violations in ten minutes -/

/-- Within one window every violation counts. -/
theorem caught_inWindow_iff {r : AbuseRecord} (hr : CountedBan (some r)) {ts : List Time}
    (hin : ∀ t ∈ ts, t - r.firstViolation ≤ violationWindow) :
    caught (some r) ts = true ↔ ts ≠ [] ∧ maxViolations ≤ r.violations + ts.length := by
  induction ts generalizing r with
  | nil => simp [caught]
  | cons t ts ih =>
    have hnext := countedBan_tracked hr t
    rw [tracked_counts hr (hin t (by simp))] at hnext
    rw [caught, tracked_counts hr (hin t (by simp)), Bool.or_eq_true,
      ih hnext fun t ht => hin t (by simp [ht])]
    cases ts with
    | nil => simp
    | cons t' ts =>
      simp only [decide_eq_true_eq, List.length_cons, ne_eq, reduceCtorEq, not_false_eq_true,
        true_and]
      omega

/-- A window that opens with the first of some violations close together counts all of them. -/
theorem caught_opening_iff {record : Option AbuseRecord} {ts : List Time}
    (hspan : ∀ s ∈ ts, ∀ t ∈ ts, t - s ≤ violationWindow)
    (hout : ∀ r, record = some r → ∀ t ∈ ts, violationWindow < t - r.firstViolation) :
    caught record ts = true ↔ maxViolations ≤ ts.length := by
  cases ts with
  | nil => simp [caught, maxViolations]
  | cons t ts =>
    have hnew : CountedBan (some ⟨1, t, t, false⟩) := by
      intro r hr hb
      obtain rfl := Option.some.inj hr
      cases hb
    rw [caught, tracked_opens fun r hr => hout r hr t (by simp), Bool.false_or,
      caught_inWindow_iff hnew fun t' ht' => hspan t (by simp) t' (by simp [ht'])]
    cases ts with
    | nil => simp [maxViolations]
    | cons t' ts =>
      simp
      omega

/-- A window that is open counts what falls into it, and after it too few are left. -/
theorem caught_counting_iff {r : AbuseRecord} (hr : CountedBan (some r)) {ts : List Time}
    (hs : ts.Pairwise (· ≤ ·)) (hspan : ∀ s ∈ ts, ∀ t ∈ ts, t - s ≤ violationWindow)
    (hlen : ts.length ≤ maxViolations)
    (hin : ∃ t ∈ ts, t - r.firstViolation ≤ violationWindow) :
    caught (some r) ts = true ↔
      maxViolations ≤
        r.violations + ts.countP fun t => t - r.firstViolation ≤ violationWindow := by
  induction ts generalizing r with
  | nil => simp at hin
  | cons t ts ih =>
    obtain ⟨hle, hs⟩ := List.pairwise_cons.1 hs
    have ht : t - r.firstViolation ≤ violationWindow := by
      obtain ⟨t', ht', hin⟩ := hin
      obtain rfl | ht' := List.mem_cons.1 ht'
      · exact hin
      · have := hle t' ht'
        linarith
    have hspan' : ∀ s ∈ ts, ∀ t ∈ ts, t - s ≤ violationWindow :=
      fun s hs t ht => hspan s (by simp [hs]) t (by simp [ht])
    have hnext := countedBan_tracked hr t
    rw [tracked_counts hr ht] at hnext
    rw [caught, tracked_counts hr ht, Bool.or_eq_true, decide_eq_true_eq]
    rw [List.countP_cons_of_pos (by simpa using ht)]
    rw [List.length_cons] at hlen
    by_cases hmore : ∃ t' ∈ ts, t' - r.firstViolation ≤ violationWindow
    · rw [ih hnext hs hspan' (by omega) hmore]
      simp only
      omega
    · have hout : ∀ t' ∈ ts, violationWindow < t' - r.firstViolation :=
        fun t' ht' => Int.not_le.1 fun hle => hmore ⟨t', ht', hle⟩
      have hnone : ts.countP (fun t => t - r.firstViolation ≤ violationWindow) = 0 := by
        rw [List.countP_eq_zero]
        intro t' ht'
        rw [decide_eq_true_eq]
        exact Int.not_le.2 (hout t' ht')
      have hout' : ∀ r', some (AbuseRecord.mk (r.violations + 1) r.firstViolation t
          (decide (maxViolations ≤ r.violations + 1))) = some r' →
          ∀ t' ∈ ts, violationWindow < t' - r'.firstViolation := by
        intro r' hr'
        obtain rfl := Option.some.inj hr'
        exact hout
      rw [caught_opening_iff hspan' hout', hnone]
      omega

/-- The violations that the record has counted in a window still open, and those of `ts` that fall
into it, reach the limit.  Where no window is open there is nothing to reach. -/
def CountReaches (record : Option AbuseRecord) (ts : List Time) : Prop :=
  ∀ r, record = some r → (∃ t ∈ ts, t - r.firstViolation ≤ violationWindow) →
    maxViolations ≤ r.violations + ts.countP fun t => t - r.firstViolation ≤ violationWindow

/-- Five violations within ten minutes ban the user exactly when the window that they find open
counts five before it ends. -/
theorem bannedBy_five_iff {h : CommandHandler} {userId : Str}
    (hnew : h.abuseRecords.lookup userId = none) (earlier : List Time) {five : List Time}
    (hlen : five.length = maxViolations) (hs : five.Pairwise (· ≤ ·))
    (hspan : ∀ s ∈ five, ∀ t ∈ five, t - s ≤ violationWindow) :
    (h.violations userId earlier).bannedBy userId five = true ↔
      CountReaches ((h.violations userId earlier).abuseRecords.lookup userId) five := by
  have hc : CountedBan ((h.violations userId earlier).abuseRecords.lookup userId) := by
    refine countedBan_violations (fun r hr => ?_) earlier
    rw [hnew] at hr
    cases hr
  rw [bannedBy_eq_caught]
  generalize (h.violations userId earlier).abuseRecords.lookup userId = record at hc
  by_cases hin : ∃ r, record = some r ∧ ∃ t ∈ five, t - r.firstViolation ≤ violationWindow
  · obtain ⟨r, rfl, hin⟩ := hin
    rw [caught_counting_iff hc hs hspan (le_of_eq hlen) hin]
    constructor
    · rintro hreach _ ⟨⟩ -
      exact hreach
    · intro hreach
      exact hreach r rfl hin
  · rw [caught_opening_iff hspan fun r hr t ht => Int.not_le.1 fun hle => hin ⟨r, hr, t, ht, hle⟩]
    exact iff_of_true (le_of_eq hlen.symm) fun r hr hr' => absurd ⟨r, hr, hr'⟩ hin

theorem bannedBy_five_iff_burst :
    (empty.violations (str "eve") [0]).bannedBy (str "eve") [1, 2, 3, 4, 5] = true ↔
      CountReaches ((empty.violations (str "eve") [0]).abuseRecords.lookup (str "eve"))
        [1, 2, 3, 4, 5] :=
  bannedBy_five_iff rfl [0] rfl (by decide) (by decide)

/-- After a first violation, three late in its window and two just after it. -/
theorem not_bannedBy_straddling :
    ¬ ∀ (h : CommandHandler) (userId : Str) (earlier five : List Time),
      h.abuseRecords.lookup userId = none → five.length = maxViolations →
      (earlier ++ five).Pairwise (· ≤ ·) →
      (∀ s ∈ five, ∀ t ∈ five, t - s ≤ violationWindow) →
      (h.violations userId earlier).bannedBy userId five = true := by
  intro hall
  have h := hall empty (str "eve") [minutes 0]
    [minutes 8, minutes 9, minutes 9, minutes 11, minutes 11] rfl rfl (by decide) (by decide)
  revert h
  decide

end CommandHandler

end Ircord

import IrcordServer.Commands.AbuseRecords
import IrcordServer.Commands.Steps

/-!
# Bans over runs of commands

A violation is a command over the rate of commands, or a join over the rate of joins.  What one
command does to the abuse records is said once (`abuseRecords_step`).
-/

open Container

namespace Ircord

namespace CommandHandler

/-! ## What a command does to the abuse records -/

section Records

variable (v : Services) (h : CommandHandler) (db : Database) (args : List Str) (caller : Caller)

theorem abuseRecords_getOrCreateChannel (name : Str) :
    (h.getOrCreateChannel name).2.abuseRecords = h.abuseRecords := by
  unfold getOrCreateChannel
  split <;> rfl

theorem abuseRecords_setOrErase (channel : Str) (chan : ChannelState) :
    (h.setOrErase channel chan).abuseRecords = h.abuseRecords := by
  unfold setOrErase
  split <;> rfl

theorem abuseRecords_partChannel (channel userId : Str) :
    (h.partChannel channel userId).abuseRecords = h.abuseRecords := by
  unfold partChannel
  split
  · rfl
  · exact abuseRecords_setOrErase h _ _

theorem abuseRecords_foldl_partChannel (userId : Str) (channels : List Str) :
    (channels.foldl (fun h channel => h.partChannel channel userId) h).abuseRecords =
      h.abuseRecords := by
  induction channels generalizing h with
  | nil => rfl
  | cons channel channels ih => exact (ih _).trans (abuseRecords_partChannel h channel userId)

/-- Whether `cmd_join` refuses the join for its rate. -/
def joinLimited (now : Time) (h : CommandHandler) (userId : Str) : List Str → Bool
  | [] => false
  | arg :: _ =>
    isValidChannelName (sanitizeChannelName arg) &&
      !((h.rateLimits now userId).joinLimiter.allow now).1

/-- The records after a violation of the user. -/
def recordsTracked (h : CommandHandler) (now : Time) (userId : Str) :
    UnorderedMap Str AbuseRecord :=
  h.abuseRecords.insert userId (tracked (h.abuseRecords.lookup userId) now)

theorem abuseRecords_cmdJoin :
    (cmdJoin v h db args caller).handler.abuseRecords =
      if joinLimited v.now h caller.userId args then h.recordsTracked v.now caller.userId
      else h.abuseRecords := by
  cases args with
  | nil => rfl
  | cons arg rest =>
    unfold cmdJoin joinLimited
    by_cases hvalid : isValidChannelName (sanitizeChannelName arg)
    · by_cases hrate : ((h.rateLimits v.now caller.userId).joinLimiter.allow v.now).1
      · have hchan := abuseRecords_getOrCreateChannel
          (h.setRateLimits caller.userId
            { h.rateLimits v.now caller.userId with
              joinLimiter := ((h.rateLimits v.now caller.userId).joinLimiter.allow v.now).2 })
          (sanitizeChannelName arg)
        simp only [hvalid, hrate, Bool.not_true, Bool.false_eq_true, if_false, Bool.and_false]
        split_ifs <;> exact hchan
      · simp only [hvalid, hrate, Bool.not_true, Bool.not_false, Bool.false_eq_true, if_false,
          if_true, Bool.and_true]
        exact abuseRecords_trackAbuse _ _ _
    · simp only [hvalid, Bool.not_false, if_true, Bool.false_and, Bool.false_eq_true, if_false]
      rfl

/-- No function but `/join` touches the records. -/
theorem abuseRecords_call {kind : CommandKind} (hkind : kind ≠ .join) :
    (call kind v h db args caller).handler.abuseRecords = h.abuseRecords := by
  cases kind with
  | join => exact absurd rfl hkind
  | nick =>
    show (cmdNick v h db args caller).handler.abuseRecords = _
    rcases cmdNick_cases v h db args caller with ⟨-, _, e⟩ | ⟨_, _, _, _, -, e⟩ <;> rw [e] <;> rfl
  | quit =>
    obtain ⟨actions, e⟩ := cmdQuit_eq v h db args caller
    show (cmdQuit v h db args caller).handler.abuseRecords = _
    rw [e]
    exact abuseRecords_foldl_partChannel h _ _
  | part =>
    show (cmdPart v h db args caller).handler.abuseRecords = _
    unfold cmdPart
    dsimp only
    repeat' split
    all_goals first | rfl | exact abuseRecords_setOrErase h _ _
  | whois =>
    show (cmdWhois v h db args).handler.abuseRecords = _
    unfold cmdWhois
    split <;> rfl
  | me =>
    show (cmdMe h db args caller).handler.abuseRecords = _
    unfold cmdMe
    split <;> rfl
  | topic =>
    show (cmdTopic v h db args caller).handler.abuseRecords = _
    unfold cmdTopic
    dsimp only
    repeat' split
    all_goals rfl
  | kick =>
    show (cmdKick v h db args caller).handler.abuseRecords = _
    unfold cmdKick
    dsimp only
    repeat' split
    all_goals rfl
  | ban =>
    show (cmdBan v h db args caller).handler.abuseRecords = _
    unfold cmdBan
    dsimp only
    repeat' split
    all_goals rfl
  | invite =>
    show (cmdInvite v h db args caller).handler.abuseRecords = _
    unfold cmdInvite
    dsimp only
    repeat' split
    all_goals rfl
  | set =>
    show (cmdSet h db args caller).handler.abuseRecords = _
    unfold cmdSet
    dsimp only
    repeat' split
    all_goals rfl
  | mode =>
    show (cmdMode h db args caller).handler.abuseRecords = _
    unfold cmdMode
    dsimp only
    repeat' split
    all_goals rfl
  | password =>
    show (cmdPassword v h db args caller).handler.abuseRecords = _
    unfold cmdPassword
    repeat' split
    all_goals rfl
  | msg =>
    show (cmdMsg v h db args).handler.abuseRecords = _
    unfold cmdMsg
    repeat' split
    all_goals rfl
  | resetdb =>
    show (cmdResetdb h db caller).handler.abuseRecords = _
    unfold cmdResetdb
    dsimp only
    repeat' split
    all_goals rfl

end Records

section Step

variable (h : CommandHandler) (i : CommandInput)

/-- Whether `handle_command` refuses the command for the rate of commands. -/
def commandLimited (now : Time) (h : CommandHandler) (cmd : IrcCommand) (userId : Str) : Bool :=
  !cmd.command.isEmpty && !(h.isAbuser now userId).1 &&
    !((h.rateLimits now userId).commandLimiter.allow now).1

/-- Whether the command is a violation. -/
def violates : Bool :=
  commandLimited i.services.now h i.cmd i.caller.userId ||
    (decide (i.kind h = some .join) && joinLimited i.services.now h i.caller.userId i.cmd.args)

/-- The limit on joins does not see the count of commands. -/
theorem joinLimited_setRateLimits (h h' : CommandHandler) (now : Time) (userId : Str)
    (commandLimiter : RateLimiter) (args : List Str) :
    joinLimited now (h'.setRateLimits userId
        ⟨commandLimiter, (h.rateLimits now userId).joinLimiter⟩) userId args =
      joinLimited now h userId args := by
  have hj : (h'.setRateLimits userId
      ⟨commandLimiter, (h.rateLimits now userId).joinLimiter⟩).rateLimits now userId =
        ⟨commandLimiter, (h.rateLimits now userId).joinLimiter⟩ :=
    rateLimits_withLimits_insert h' now userId _ h'.userRateLimits h'.abuseRecords
  cases args with
  | nil => rfl
  | cons arg rest => rw [joinLimited, joinLimited, hj]

/-- What `is_abuser` leaves of the records, with the violation of the command if it is one. -/
theorem abuseRecords_step :
    (h.step i).abuseRecords =
      if i.cmd.command.isEmpty then h.abuseRecords
      else if violates h i then
        (h.isAbuser i.services.now i.caller.userId).2.recordsTracked i.services.now i.caller.userId
      else (h.isAbuser i.services.now i.caller.userId).2.abuseRecords := by
  obtain ⟨abuser, limits, records, habuse⟩ := isAbuser_eq h i.services.now i.caller.userId
  have hlimits := rateLimits_isAbuser habuse i.services.now i.caller.userId
  unfold step CommandInput.outcome violates CommandInput.kind commandLimited dispatched admitted
    handleCommand
  simp only [habuse] at *
  by_cases hempty : i.cmd.command.isEmpty
  · rw [if_pos hempty, if_pos hempty]
    rfl
  rw [if_neg hempty, if_neg hempty]
  cases abuser with
  | true => simp [hempty, Outcome.refuse]
  | false =>
    by_cases hrate : ((h.rateLimits i.services.now i.caller.userId).commandLimiter.allow
        i.services.now).1
    · simp only [hlimits, hrate]
      cases hkind : commandMap.lookup (lowercase i.cmd.command) with
      | none => simp [hempty, Outcome.refuse, setRateLimits]
      | some kind =>
        by_cases hjoin : kind = .join
        · subst hjoin
          simp [hempty, call]
          rw [abuseRecords_cmdJoin, joinLimited_setRateLimits]
          rfl
        · simp [hempty, hjoin]
          exact abuseRecords_call _ _ _ _ _ hjoin
    · simp [hempty, hlimits, hrate, Outcome.refuse]
      exact abuseRecords_trackAbuse _ _ _

theorem isAbuser_cases (now : Time) (userId : Str) :
    (h.banned userId = false ∧ h.isAbuser now userId = (false, h)) ∨
    (∃ r, h.abuseRecords.lookup userId = some r ∧ r.banned = true ∧
      now ≤ r.lastViolation + banDuration ∧ h.isAbuser now userId = (true, h)) ∨
    ∃ r, h.abuseRecords.lookup userId = some r ∧ r.banned = true ∧
      r.lastViolation + banDuration < now ∧
      h.isAbuser now userId =
        (false, { h with abuseRecords := h.abuseRecords.erase userId }) := by
  unfold isAbuser banned
  cases hr : h.abuseRecords.lookup userId with
  | none => exact Or.inl ⟨rfl, rfl⟩
  | some r =>
    cases hb : r.banned with
    | false => exact Or.inl ⟨hb, by simp [hb]⟩
    | true =>
      by_cases hexpired : now - r.lastViolation > banDuration
      · exact Or.inr (Or.inr ⟨r, rfl, hb, by linarith, by simp [hb, hexpired]⟩)
      · exact Or.inr (Or.inl ⟨r, rfl, hb, by linarith, by simp [hb, hexpired]⟩)

/-- The record of a user after a command: kept, forgotten, or counting a violation of the user. -/
theorem record_step (u : Str) :
    (h.step i).abuseRecords.lookup u = h.abuseRecords.lookup u ∨
    (h.step i).abuseRecords.lookup u = none ∨
    (i.caller.userId = u ∧ violates h i = true) ∧
      ∃ prev, (prev = none ∨ prev = h.abuseRecords.lookup u) ∧
        (h.step i).abuseRecords.lookup u = some (tracked prev i.services.now) := by
  have hgate : (h.isAbuser i.services.now i.caller.userId).2.abuseRecords.lookup u =
      h.abuseRecords.lookup u ∨
      (h.isAbuser i.services.now i.caller.userId).2.abuseRecords.lookup u = none := by
    rcases isAbuser_cases h i.services.now i.caller.userId with
      ⟨-, e⟩ | ⟨_, -, -, -, e⟩ | ⟨_, -, -, -, e⟩
    · exact Or.inl (by rw [e])
    · exact Or.inl (by rw [e])
    · rw [e]
      simp only [UnorderedMap.lookup_erase_ite]
      split
      · exact Or.inr rfl
      · exact Or.inl rfl
  rw [abuseRecords_step]
  split_ifs with hempty hviolates
  · exact Or.inl rfl
  · rw [recordsTracked, UnorderedMap.lookup_insert_ite]
    split_ifs with hu
    · subst hu
      exact Or.inr (Or.inr ⟨⟨rfl, hviolates⟩, _, hgate.symm, rfl⟩)
    · exact hgate.imp_right Or.inl
  · exact hgate.imp_right Or.inl

/-- Other users' commands leave the record of a user alone. -/
theorem record_step_of_ne {u : Str} (hne : i.caller.userId ≠ u) :
    (h.step i).abuseRecords.lookup u = h.abuseRecords.lookup u := by
  have hgate : (h.isAbuser i.services.now i.caller.userId).2.abuseRecords.lookup u =
      h.abuseRecords.lookup u := by
    rcases isAbuser_cases h i.services.now i.caller.userId with
      ⟨-, e⟩ | ⟨_, -, -, -, e⟩ | ⟨_, -, -, -, e⟩
    · rw [e]
    · rw [e]
    · rw [e]
      exact AList.lookup_erase_ne hne.symm
  rw [abuseRecords_step]
  split_ifs
  · rfl
  · rw [recordsTracked, AList.lookup_insert_ne hne.symm]
    exact hgate
  · exact hgate

end Step

/-! ## A ban is justified -/

/-- The commands of the user come at nondecreasing times. -/
def InOrder (u : Str) (is : List CommandInput) : Prop :=
  is.Pairwise fun i j =>
    i.caller.userId = u → j.caller.userId = u → i.services.now ≤ j.services.now

instance (u : Str) (is : List CommandInput) : Decidable (InOrder u is) :=
  inferInstanceAs (Decidable (is.Pairwise _))

/-- The time of the command, if it is a violation of the user. -/
def violationTime (u : Str) (h : CommandHandler) (i : CommandInput) : Option Time :=
  if i.caller.userId = u ∧ violates h i = true then some i.services.now else none

/-- The times at which the user committed violations in a run. -/
def violationTimes (u : Str) (is : List CommandInput) : List Time :=
  Run.observe step (violationTime u) empty is

/-- The record counts no more violations than the user committed from the first of them to the
last, which are at most `kViolationWindow` apart. -/
structure Justified (u : Str) (is : List CommandInput) (r : AbuseRecord) : Prop where
  counted : r.banned = true → maxViolations ≤ r.violations
  ordered : r.firstViolation ≤ r.lastViolation
  short : r.lastViolation - r.firstViolation ≤ violationWindow
  last : ∃ i ∈ is, i.caller.userId = u ∧ i.services.now = r.lastViolation
  committed : r.violations ≤ (violationTimes u is).countP fun t =>
    r.firstViolation ≤ t ∧ t ≤ r.lastViolation

variable {u : Str} {is : List CommandInput} {i : CommandInput}

theorem violationTimes_snoc (u : Str) (is : List CommandInput) (i : CommandInput) :
    violationTimes u (is ++ [i]) =
      violationTimes u is ++ (violationTime u (Run.final step empty is) i).toList :=
  Run.observe_snoc empty is i

theorem Justified.snoc {r : AbuseRecord} (hr : Justified u is r) (i : CommandInput) :
    Justified u (is ++ [i]) r where
  counted := hr.counted
  ordered := hr.ordered
  short := hr.short
  last := by
    obtain ⟨j, hj, hlast⟩ := hr.last
    exact ⟨j, List.mem_append_left _ hj, hlast⟩
  committed := by
    rw [violationTimes_snoc, List.countP_append]
    exact le_trans hr.committed (Nat.le_add_right _ _)

theorem Justified.tracked {prev : Option AbuseRecord}
    (hprev : ∀ r, prev = some r → Justified u is r) (hord : InOrder u (is ++ [i]))
    (hi : i.caller.userId = u ∧ violates (Run.final step empty is) i = true) :
    Justified u (is ++ [i]) (tracked prev i.services.now) := by
  have htimes : violationTimes u (is ++ [i]) = violationTimes u is ++ [i.services.now] := by
    rw [violationTimes_snoc, violationTime, if_pos hi]
    rfl
  have hlast : ∃ j ∈ is ++ [i], j.caller.userId = u ∧ j.services.now = i.services.now :=
    ⟨i, by simp, hi.1, rfl⟩
  rcases tracked_cases (fun r hr => (hprev r hr).counted) i.services.now with
    ⟨r, hr, hin, e⟩ | e
  · have hjust := hprev r hr
    -- The commands so far came no later than this one.
    have hle : r.lastViolation ≤ i.services.now := by
      obtain ⟨j, hj, hju, hjlast⟩ := hjust.last
      rw [← hjlast]
      exact (List.pairwise_append.1 hord).2.2 j hj i (by simp) hju hi.1
    rw [e]
    refine ⟨of_decide_eq_true, le_trans hjust.ordered hle, hin, hlast, ?_⟩
    have hgrow : (violationTimes u is).countP
          (fun t => r.firstViolation ≤ t ∧ t ≤ r.lastViolation) ≤
        (violationTimes u is).countP
          (fun t => r.firstViolation ≤ t ∧ t ≤ i.services.now) := by
      apply List.countP_mono_left
      intro t _ ht
      simp only [decide_eq_true_eq] at ht ⊢
      exact ⟨ht.1, le_trans ht.2 hle⟩
    rw [htimes, List.countP_append, List.countP_singleton,
      if_pos (by simpa using le_trans hjust.ordered hle)]
    exact Nat.add_le_add_right (le_trans hjust.committed hgrow) 1
  · rw [e]
    refine ⟨fun hb => (by cases hb), le_refl _, ?_, hlast, ?_⟩
    · have := violationWindow_nonneg
      simpa using this
    · rw [htimes, List.countP_append, List.countP_singleton, if_pos (by simp)]
      exact Nat.le_add_left _ _

theorem justified_step
    (hj : ∀ r, (Run.final step empty is).abuseRecords.lookup u = some r → Justified u is r)
    (hord : InOrder u (is ++ [i])) (r : AbuseRecord)
    (hr : ((Run.final step empty is).step i).abuseRecords.lookup u = some r) :
    Justified u (is ++ [i]) r := by
  rcases record_step (Run.final step empty is) i u with e | e | ⟨hv, prev, hprev, e⟩
  · exact (hj r (e ▸ hr)).snoc i
  · rw [e] at hr
    cases hr
  · rw [e] at hr
    obtain rfl := Option.some.inj hr
    refine Justified.tracked (fun r hr => ?_) hord hv
    rcases hprev with rfl | rfl
    · cases hr
    · exact hj r hr

/-- In every run the record of a user is justified by its violations. -/
theorem justified_run (hord : InOrder u is) (r : AbuseRecord)
    (hr : (Run.final step empty is).abuseRecords.lookup u = some r) : Justified u is r := by
  revert hord r
  let H (is : List CommandInput) (h : CommandHandler) : Prop :=
    InOrder u is → ∀ r, h.abuseRecords.lookup u = some r → Justified u is r
  refine @Run.history_induction _ _ step empty H ?_ ?_ is
  · intro _ r hr
    cases hr
  · intro is i ih hord
    exact justified_step (ih (List.pairwise_append.1 hord).1) hord

/-! ## A ban lasts -/

/-- The command is refused and changes nothing. -/
def Refused (h : CommandHandler) (i : CommandInput) : Prop :=
  ∃ message, i.outcome h = .refuse h i.db message i.cmd.command

theorem refused_of_empty (h : CommandHandler) {i : CommandInput} (hempty : i.cmd.command = []) :
    i.outcome h = .refuse h i.db (str "Empty command") [] := by
  unfold CommandInput.outcome handleCommand
  simp [hempty]

theorem refused_of_banned {h : CommandHandler} {r : AbuseRecord}
    (hr : h.abuseRecords.lookup i.caller.userId = some r) (hb : r.banned = true)
    (hle : i.services.now ≤ r.lastViolation + banDuration) : Refused h i := by
  by_cases hempty : i.cmd.command = []
  · exact ⟨_, by rw [refused_of_empty h hempty, hempty]⟩
  have hin : ¬ i.services.now - r.lastViolation > banDuration := by linarith
  have habuse : h.isAbuser i.services.now i.caller.userId = (true, h) := by
    simp only [isAbuser, hr, hb, hin, if_true, if_false]
  unfold Refused CommandInput.outcome handleCommand
  simp only [habuse, List.isEmpty_iff, hempty, if_true, if_false]
  exact ⟨_, rfl⟩

theorem step_eq_of_refused {h : CommandHandler} (hrefused : Refused h i) : h.step i = h := by
  obtain ⟨_, e⟩ := hrefused
  rw [step, e, Outcome.refuse]

/-- The ban stands as long as the user's commands are empty or come before its end. -/
theorem record_final {h : CommandHandler} {r : AbuseRecord}
    (hr : h.abuseRecords.lookup u = some r) (hb : r.banned = true) {is : List CommandInput}
    (his : ∀ i ∈ is, i.caller.userId = u →
      i.cmd.command = [] ∨ i.services.now ≤ r.lastViolation + banDuration) :
    (Run.final step h is).abuseRecords.lookup u = some r := by
  induction is generalizing h with
  | nil => exact hr
  | cons i is ih =>
    refine ih ?_ fun j hj => his j (by simp [hj])
    by_cases hu : i.caller.userId = u
    · subst hu
      have hrefused : Refused h i := by
        rcases his i (by simp) rfl with hempty | hle
        · exact ⟨_, by rw [refused_of_empty h hempty, hempty]⟩
        · exact refused_of_banned hr hb hle
      rw [step_eq_of_refused hrefused]
      exact hr
    · rw [record_step_of_ne h i hu]
      exact hr

/-- The command is not refused for abuse, and does what it does without a record. -/
def StartsFresh (h : CommandHandler) (i : CommandInput) : Prop :=
  (h.isAbuser i.services.now i.caller.userId).1 = false ∧
    i.outcome h =
      i.outcome { h with abuseRecords := h.abuseRecords.erase i.caller.userId }

theorem startsFresh_of_expired {h : CommandHandler} {r : AbuseRecord}
    (hr : h.abuseRecords.lookup i.caller.userId = some r) (hb : r.banned = true)
    (hlt : r.lastViolation + banDuration < i.services.now) (hne : i.cmd.command ≠ []) :
    StartsFresh h i := by
  have hout : i.services.now - r.lastViolation > banDuration := by linarith
  have habuse : h.isAbuser i.services.now i.caller.userId =
      (false, { h with abuseRecords := h.abuseRecords.erase i.caller.userId }) := by
    simp only [isAbuser, hr, hb, hout, if_true]
  have hfresh : isAbuser { h with abuseRecords := h.abuseRecords.erase i.caller.userId }
      i.services.now i.caller.userId =
        (false, { h with abuseRecords := h.abuseRecords.erase i.caller.userId }) := by
    simp only [isAbuser, AList.lookup_erase]
  refine ⟨by rw [habuse], ?_⟩
  unfold CommandInput.outcome handleCommand
  simp only [habuse, hfresh, List.isEmpty_iff, hne, if_false]

/-! ## Any run -/

/-- A ban starts at a violation of the user, and counts from it. -/
theorem record_of_ban (hord : InOrder u (is ++ [i]))
    (hfree : (Run.final step empty is).banned u = false)
    (hban : (Run.final step empty (is ++ [i])).banned u = true) :
    (i.caller.userId = u ∧ violates (Run.final step empty is) i = true) ∧
      ∃ r, (Run.final step empty (is ++ [i])).abuseRecords.lookup u = some r ∧ r.banned = true ∧
        r.lastViolation = i.services.now := by
  rw [Run.final_append] at hban ⊢
  have hban' : ((Run.final step empty is).step i).banned u = true := hban
  rw [banned] at hfree hban'
  rcases record_step (Run.final step empty is) i u with e | e | ⟨hv, prev, hprev, e⟩
  · rw [e, hfree] at hban'
    cases hban'
  · rw [e] at hban'
    cases hban'
  · rw [e] at hban'
    refine ⟨hv, _, e, hban', ?_⟩
    have hc : CountedBan prev := by
      rcases hprev with rfl | rfl
      · rintro _ ⟨⟩
      · exact fun r hr => (justified_run (List.pairwise_append.1 hord).1 r hr).counted
    rcases tracked_cases hc i.services.now with ⟨r, -, -, e⟩ | e <;> rw [e]

/-- A ban starts with five violations in ten minutes, refuses every command for thirty minutes, and
is forgotten by the first command after that; an empty command is refused as such at any time. -/
theorem ban_justified_and_timed {before after : List CommandInput}
    (hord : InOrder u (before ++ i :: after))
    (hfree : (Run.final step empty before).banned u = false)
    (hban : (Run.final step empty (before ++ [i])).banned u = true) :
    ((i.caller.userId = u ∧ violates (Run.final step empty before) i = true) ∧
      maxViolations ≤ (violationTimes u (before ++ [i])).countP fun t =>
        i.services.now - violationWindow ≤ t ∧ t ≤ i.services.now) ∧
    ∀ mid j rest, after = mid ++ j :: rest → j.caller.userId = u →
      (j.services.now ≤ i.services.now + banDuration →
        Refused (Run.final step empty (before ++ i :: mid)) j) ∧
      (i.services.now + banDuration < j.services.now →
        (∀ k ∈ mid, k.caller.userId = u →
          k.cmd.command = [] ∨ k.services.now ≤ i.services.now + banDuration) →
        if j.cmd.command = [] then
          j.outcome (Run.final step empty (before ++ i :: mid)) =
            .refuse (Run.final step empty (before ++ i :: mid)) j.db (str "Empty command") []
        else StartsFresh (Run.final step empty (before ++ i :: mid)) j) := by
  have happ : before ++ i :: after = before ++ [i] ++ after := by simp
  have hord' : InOrder u (before ++ [i]) := by
    rw [happ] at hord
    exact (List.pairwise_append.1 hord).1
  obtain ⟨hv, r, hr, hb, hlast⟩ := record_of_ban hord' hfree hban
  refine ⟨⟨hv, ?_⟩, fun mid j rest hafter hj => ?_⟩
  · have hjust := justified_run hord' r hr
    refine le_trans (hjust.counted hb) (le_trans hjust.committed (List.countP_mono_left ?_))
    intro t _ ht
    have hshort := hjust.short
    simp only [decide_eq_true_eq, hlast] at ht hshort ⊢
    exact ⟨by linarith [ht.1], ht.2⟩
  · subst hj
    -- The record at `j`, if the user's commands before it leave the ban alone.
    have hstands (hmid : ∀ k ∈ mid, k.caller.userId = j.caller.userId →
        k.cmd.command = [] ∨ k.services.now ≤ i.services.now + banDuration) :
        (Run.final step empty (before ++ i :: mid)).abuseRecords.lookup j.caller.userId =
          some r := by
      rw [show before ++ i :: mid = before ++ [i] ++ mid by simp, Run.final_append]
      rw [← hlast] at hmid
      exact record_final hr hb hmid
    constructor
    · intro hle
      refine refused_of_banned (hstands fun k hk hku => Or.inr ?_) hb (by rwa [hlast])
      rw [hafter, ← List.cons_append, ← List.append_assoc] at hord
      exact le_trans
        ((List.pairwise_append.1 hord).2.2 k (by simp [hk]) j (by simp) hku rfl) hle
    · intro hlt hmid
      split_ifs with hempty
      · exact refused_of_empty _ hempty
      · exact startsFresh_of_expired (hstands hmid) hb (by rwa [hlast]) hempty

/-- A join at time `t`. -/
def joinAt (t : Time) : CommandInput :=
  { CommandInput.typed "eve" "join" ["#a"] with services := { Services.idle with now := t } }

theorem ban_justified_and_timed_joins :
    maxViolations ≤ (violationTimes (str "eve") (List.replicate 10 (joinAt 0))).countP (fun t =>
      0 - violationWindow ≤ t ∧ t ≤ 0) ∧
    Refused (Run.final step empty (List.replicate 10 (joinAt 0))) (joinAt banDuration) := by
  obtain ⟨⟨-, h⟩, hrest⟩ := @ban_justified_and_timed (str "eve") (joinAt 0)
    (List.replicate 9 (joinAt 0)) [joinAt banDuration, joinAt (banDuration + 1)] (by decide)
    (by decide +kernel) (by decide +kernel)
  exact ⟨h, (hrest [] (joinAt banDuration) [joinAt (banDuration + 1)] rfl rfl).1 (by decide)⟩

end CommandHandler

end Ircord

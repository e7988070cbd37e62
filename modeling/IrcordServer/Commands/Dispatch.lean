import IrcordServer.Commands.Handler
import IrcordServer.Run
import IrcordServer.Wire

/-!
# Runs of the command handler

A run of the handler is a sequence of commands, each from any user and at any time, with whatever
the rest of the server answers and whatever the tables hold by then (`CommandInput`).  Before a
command gets to its function, `handle_command` passes it through the abuse ban, the rate limit and
the command table; none of these touch channels, nicknames or tables.
-/

open Container

namespace Ircord

namespace CommandHandler

/-! ## Dispatch -/

/-- Whether the abuse ban and the command rate limit let the user through. -/
def admitted (now : Time) (h : CommandHandler) (userId : Str) : Bool :=
  let (abuser, h) := h.isAbuser now userId
  !abuser && ((h.rateLimits now userId).commandLimiter.allow now).1

/-- The function that `handle_command` calls, if it gets that far. -/
def dispatched (now : Time) (h : CommandHandler) (cmd : IrcCommand) (userId : Str) :
    Option CommandKind :=
  if cmd.command.isEmpty || !admitted now h userId then none
  else commandMap.lookup (lowercase cmd.command)

/-- `h` with other rate limits and abuse records. -/
def withLimits (h : CommandHandler) (limits : UnorderedMap Str UserRateLimits)
    (records : UnorderedMap Str AbuseRecord) : CommandHandler :=
  { h with userRateLimits := limits, abuseRecords := records }

theorem trackAbuse_eq (h : CommandHandler) (now : Time) (userId : Str) :
    ∃ banned limits records, h.trackAbuse now userId = (banned, h.withLimits limits records) := by
  unfold trackAbuse
  dsimp only
  split_ifs <;> exact ⟨_, _, _, rfl⟩

theorem isAbuser_eq (h : CommandHandler) (now : Time) (userId : Str) :
    ∃ abuser limits records, h.isAbuser now userId = (abuser, h.withLimits limits records) := by
  unfold isAbuser
  split
  · exact ⟨_, _, _, rfl⟩
  · split_ifs <;> exact ⟨_, _, _, rfl⟩

/-- The abuse check changes no rate limits. -/
theorem rateLimits_isAbuser {h h' : CommandHandler} {now : Time} {userId : Str} {abuser : Bool}
    (habuse : h.isAbuser now userId = (abuser, h')) (now' : Time) (userId' : Str) :
    h'.rateLimits now' userId' = h.rateLimits now' userId' := by
  unfold isAbuser at habuse
  split at habuse
  · rw [← (Prod.mk.inj habuse).2]
  · split_ifs at habuse
    all_goals rw [← (Prod.mk.inj habuse).2]
    all_goals rfl

theorem rateLimits_withLimits_insert (h : CommandHandler) (now : Time) (userId : Str)
    (new : UserRateLimits) (limits : UnorderedMap Str UserRateLimits)
    (records : UnorderedMap Str AbuseRecord) :
    (h.withLimits (limits.insert userId new) records).rateLimits now userId = new := by
  unfold rateLimits withLimits
  rw [UnorderedMap.lookup_insert_ite, if_pos rfl, Option.getD_some]

section Dispatch

variable {v : Services} {h : CommandHandler} {db : Database} {cmd : IrcCommand} {caller : Caller}

/-- A command that is not dispatched is refused. -/
theorem handleCommand_undispatched (hd : dispatched v.now h cmd caller.userId = none) :
    ∃ limits records message command,
      handleCommand v h db cmd caller =
        .refuse (h.withLimits limits records) db message command := by
  obtain ⟨abuser, limits, records, habuse⟩ := isAbuser_eq h v.now caller.userId
  unfold dispatched admitted at hd
  unfold handleCommand
  simp only [habuse] at hd ⊢
  split_ifs with hempty hban hrate
  · exact ⟨h.userRateLimits, h.abuseRecords, _, _, rfl⟩
  · exact ⟨_, _, _, _, rfl⟩
  · obtain ⟨_, limits', records', htrack⟩ :=
      trackAbuse_eq ((h.withLimits limits records).setRateLimits caller.userId _) v.now
        caller.userId
    rw [htrack]
    exact ⟨_, _, _, _, rfl⟩
  · have hnone : commandMap.lookup (lowercase cmd.command) = none := by
      rwa [if_neg (by simpa [hempty, hban] using hrate)] at hd
    rw [hnone]
    exact ⟨_, _, _, _, rfl⟩

/-- A dispatched command runs its function, on a handler with other limits; the limit on joins is
still the same. -/
theorem handleCommand_dispatched {kind : CommandKind}
    (hd : dispatched v.now h cmd caller.userId = some kind) :
    ∃ limits records,
      handleCommand v h db cmd caller =
        call kind v (h.withLimits limits records) db cmd.args caller ∧
      ((h.withLimits limits records).rateLimits v.now caller.userId).joinLimiter =
        (h.rateLimits v.now caller.userId).joinLimiter := by
  obtain ⟨abuser, limits, records, habuse⟩ := isAbuser_eq h v.now caller.userId
  have hlimits := rateLimits_isAbuser habuse v.now caller.userId
  unfold dispatched admitted at hd
  unfold handleCommand
  simp only [habuse] at hd ⊢
  split_ifs at hd with hgate
  simp only [Bool.or_eq_true, Bool.not_eq_true', not_or, Bool.not_eq_true, Bool.and_eq_true,
    Bool.not_eq_false] at hgate
  obtain ⟨hempty, hban, hrate⟩ := hgate
  rw [if_neg (by simp [hempty]), if_neg (by simp [hban]), if_neg (by simp [hrate]), hd]
  refine ⟨_, _, rfl, ?_⟩
  rw [← hlimits]
  rw [rateLimits_withLimits_insert]

end Dispatch

end CommandHandler

/-- One call of `handle_command`. -/
structure CommandInput where
  services : Services
  db : Database
  cmd : IrcCommand
  caller : Caller

namespace CommandInput

variable (i : CommandInput) (h : CommandHandler)

/-- The function the command reaches. -/
def kind : Option CommandKind :=
  CommandHandler.dispatched i.services.now h i.cmd i.caller.userId

def outcome : Outcome := CommandHandler.handleCommand i.services h i.db i.cmd i.caller

variable {i h}

theorem outcome_of_kind_eq_none (hkind : i.kind h = none) :
    ∃ limits records message command,
      i.outcome h = .refuse (h.withLimits limits records) i.db message command :=
  CommandHandler.handleCommand_undispatched hkind

theorem outcome_of_kind_eq_some {kind : CommandKind} (hkind : i.kind h = some kind) :
    ∃ limits records,
      i.outcome h = CommandHandler.call kind i.services (h.withLimits limits records) i.db
        i.cmd.args i.caller ∧
      ((h.withLimits limits records).rateLimits i.services.now i.caller.userId).joinLimiter =
        (h.rateLimits i.services.now i.caller.userId).joinLimiter :=
  CommandHandler.handleCommand_dispatched hkind

end CommandInput

/-- The answers of a server on which nobody is online. -/
def Services.idle : Services where
  findSession _ := none
  codec := .proto3
  crypto := ⟨fun _ _ _ => false, fun _ _ => false⟩
  now := 0
  nowUnix := 0
  pwhash := none

/-- A command typed by a user of an idle server with an empty database. -/
def CommandInput.typed (userId command : String) (args : List String) : CommandInput :=
  ⟨.idle, .empty, ⟨str command, args.map str⟩, ⟨0, str userId⟩⟩

namespace CommandHandler

def step (h : CommandHandler) (i : CommandInput) : CommandHandler := (i.outcome h).handler

end CommandHandler

end Ircord

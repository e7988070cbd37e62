import IrcordServer.Commands.Dispatch

/-!
# What one command does

What a command can do to a channel is said once, by the cases of `ChannelStep`
(`channelStep_step`); how a call ends, and what it does to the nicknames, by `Ending`
(`ending_call`).  Everything that is proved about the channels and nicknames of a run goes through
these.
-/

open Container

namespace Ircord

namespace CommandHandler

/-! ## The cases of a channel step -/

/-- Who `cmd_join` lets in. -/
def MayJoin (chan : ChannelState) (u : Str) : Prop :=
  u ∉ chan.banned ∧ (chan.inviteOnly = true → u ∈ chan.invites ∨ u ∈ chan.operators)

/-- The channel after `cmd_join` has let the user in: whoever is alone in it operates it. -/
def addUser (chan : ChannelState) (u : Str) : ChannelState :=
  { chan with
    members := chan.members.insert u
    operators :=
      if (chan.members.insert u).size = 1 then chan.operators.insert u else chan.operators }

/-- The channel, unless nobody is left in it. -/
def keepNonempty (chan : ChannelState) : Option ChannelState :=
  if chan.members.size = 0 then none else some chan

theorem keepNonempty_eq_some {chan chan' : ChannelState} (h : keepNonempty chan = some chan') :
    chan' = chan := by
  unfold keepNonempty at h
  split_ifs at h
  exact (Option.some.inj h).symm

theorem mem_members_removeUser {chan : ChannelState} {u v : Str} :
    v ∈ (removeUser chan u).members ↔ v ≠ u ∧ v ∈ chan.members :=
  UnorderedSet.mem_erase

/-- What a command of user `u` does to the channel `name`, absent or present, before and after. -/
inductive ChannelStep (resolve : Str → Str) (u name : Str) :
    Option CommandKind → List Str → Option ChannelState → Option ChannelState → Prop
  | same (kind : Option CommandKind) (args : List Str) (slot : Option ChannelState) :
      ChannelStep resolve u name kind args slot slot
  | join (arg : Str) (rest : List Str) (slot : Option ChannelState)
      (named : name = sanitizeChannelName arg) (may : MayJoin (slot.getD (newChannel name)) u) :
      ChannelStep resolve u name (some .join) (arg :: rest) slot
        (some (addUser (slot.getD (newChannel name)) u))
  | part (rest : List Str) (chan : ChannelState) (member : u ∈ chan.members) :
      ChannelStep resolve u name (some .part) (name :: rest) (some chan)
        (keepNonempty (removeUser chan u))
  | quit (args : List Str) (chan : ChannelState) (member : u ∈ chan.members) :
      ChannelStep resolve u name (some .quit) args (some chan) (keepNonempty (removeUser chan u))
  | topic (first : Str) (rest : List Str) (chan : ChannelState) (member : u ∈ chan.members)
      (may : chan.topicRestricted = true → u ∈ chan.operators) :
      ChannelStep resolve u name (some .topic) (name :: first :: rest) (some chan)
        (some { chan with topic := joinArgs first rest })
  | kick (target : Str) (rest : List Str) (chan : ChannelState) (operator : u ∈ chan.operators)
      (member : resolve target ∈ chan.members) :
      ChannelStep resolve u name (some .kick) (name :: target :: rest) (some chan)
        (some (removeUser chan (resolve target)))
  | ban (target : Str) (rest : List Str) (chan : ChannelState) (operator : u ∈ chan.operators) :
      ChannelStep resolve u name (some .ban) (name :: target :: rest) (some chan)
        (some { chan with
          banned := chan.banned.insert (resolve target)
          members := chan.members.erase (resolve target) })
  | invite (target : Str) (rest : List Str) (chan : ChannelState) (operator : u ∈ chan.operators) :
      ChannelStep resolve u name (some .invite) (name :: target :: rest) (some chan)
        (some { chan with invites := chan.invites.insert (resolve target) })
  | set (option value : Str) (rest : List Str) (chan : ChannelState) (inviteOnly moderated
      topicRestricted : Bool) (operator : u ∈ chan.operators) :
      ChannelStep resolve u name (some .set) (name :: option :: value :: rest) (some chan)
        (some { chan with
          inviteOnly := inviteOnly, moderated := moderated, topicRestricted := topicRestricted })
  | modeOperator (mode target : Str) (rest : List Str) (chan : ChannelState) (give : Bool)
      (operator : u ∈ chan.operators) (member : resolve target ∈ chan.members) :
      ChannelStep resolve u name (some .mode) (name :: mode :: target :: rest) (some chan)
        (some { chan with
          operators :=
            if give then chan.operators.insert (resolve target)
            else chan.operators.erase (resolve target) })
  | modeVoice (mode target : Str) (rest : List Str) (chan : ChannelState) (give : Bool)
      (operator : u ∈ chan.operators) (member : resolve target ∈ chan.members) :
      ChannelStep resolve u name (some .mode) (name :: mode :: target :: rest) (some chan)
        (some { chan with
          voiced :=
            if give then chan.voiced.insert (resolve target)
            else chan.voiced.erase (resolve target) })

/-! ## Each command is one of the cases -/

section Steps

variable (v : Services) (h : CommandHandler) (db : Database) (args : List Str) (caller : Caller)

@[simp] theorem lookup_setChannel (channel name : Str) (chan : ChannelState) :
    (h.setChannel channel chan).channels.lookup name =
      if name = channel then some chan else h.channels.lookup name :=
  UnorderedMap.lookup_insert_ite _ _ _ _

@[simp] theorem lookup_eraseChannel (channel name : Str) :
    (h.eraseChannel channel).channels.lookup name =
      if name = channel then none else h.channels.lookup name :=
  UnorderedMap.lookup_erase_ite _ _ _

@[simp] theorem lookup_setOrErase (channel name : Str) (chan : ChannelState) :
    (h.setOrErase channel chan).channels.lookup name =
      if name = channel then keepNonempty chan else h.channels.lookup name := by
  unfold setOrErase keepNonempty
  split_ifs <;> simp [*]

theorem getOrCreateChannel_of_none {h : CommandHandler} {name : Str}
    (hnone : h.channels.lookup name = none) :
    h.getOrCreateChannel name = (newChannel name, h.setChannel name (newChannel name)) := by
  rw [getOrCreateChannel, hnone]

theorem getOrCreateChannel_of_some {h : CommandHandler} {name : Str} {chan : ChannelState}
    (hchan : h.channels.lookup name = some chan) : h.getOrCreateChannel name = (chan, h) := by
  rw [getOrCreateChannel, hchan]

theorem mayJoin_newChannel (name u : Str) : MayJoin (newChannel name) u :=
  ⟨UnorderedSet.not_mem_empty u, fun e => Bool.noConfusion e⟩

/-- Whether `cmd_join` lets the user in: the name is valid, the join is within the rate, and the
channel takes the user. -/
def JoinAdmitted (now : Time) (h : CommandHandler) (u : Str) : List Str → Prop
  | [] => False
  | arg :: _ =>
    isValidChannelName (sanitizeChannelName arg) = true ∧
      ((h.rateLimits now u).joinLimiter.allow now).1 = true ∧
      MayJoin ((h.channels.lookup (sanitizeChannelName arg)).getD
        (newChannel (sanitizeChannelName arg))) u

/-- A join is refused with nothing done, or lets the user in. -/
theorem cmdJoin_cases :
    (¬ JoinAdmitted v.now h caller.userId args ∧ ∃ limits records message,
      cmdJoin v h db args caller = .refuse (h.withLimits limits records) db message (str "join")) ∨
    JoinAdmitted v.now h caller.userId args ∧ ∃ arg rest channels limits actions message,
      args = arg :: rest ∧
      (∀ name, channels.lookup name =
        if name = sanitizeChannelName arg then
          some (addUser ((h.channels.lookup name).getD (newChannel name)) caller.userId)
        else h.channels.lookup name) ∧
      cmdJoin v h db args caller =
        .accept { h.withLimits limits h.abuseRecords with channels := channels } db actions message
          (str "join") := by
  cases args with
  | nil => exact Or.inl ⟨fun hadm => hadm, h.userRateLimits, h.abuseRecords, _, rfl⟩
  | cons arg rest =>
    unfold cmdJoin
    dsimp only
    by_cases hvalid : isValidChannelName (sanitizeChannelName arg)
    swap
    · rw [if_pos (by simp [hvalid])]
      exact Or.inl ⟨fun hadm => hvalid hadm.1, h.userRateLimits, h.abuseRecords, _, rfl⟩
    rw [if_neg (by simp [hvalid])]
    by_cases hrate : ((h.rateLimits v.now caller.userId).joinLimiter.allow v.now).1
    swap
    · obtain ⟨_, limits, records, htrack⟩ :=
        trackAbuse_eq (h.setRateLimits caller.userId _) v.now caller.userId
      rw [if_pos (by simp [hrate]), htrack]
      exact Or.inl ⟨fun hadm => hrate hadm.2.1, _, _, _, rfl⟩
    rw [if_neg (by simp [hrate])]
    rcases hslot : h.channels.lookup (sanitizeChannelName arg) with _ | chan
    · -- a channel made on the fly bans nobody
      have hget : ∀ limits, (h.setRateLimits caller.userId limits).getOrCreateChannel
          (sanitizeChannelName arg) = _ := fun _ => getOrCreateChannel_of_none hslot
      have hmay := mayJoin_newChannel (sanitizeChannelName arg) caller.userId
      rw [hget, if_neg hmay.1, if_neg (by simp [newChannel])]
      refine Or.inr ⟨⟨hvalid, hrate, ?_⟩, arg, rest,
        (h.channels.insert (sanitizeChannelName arg) _).insert
          (sanitizeChannelName arg) (addUser (newChannel (sanitizeChannelName arg)) caller.userId),
        _, _, _, rfl, fun name => ?_, rfl⟩
      · rw [hslot]
        exact hmay
      · rw [UnorderedMap.lookup_insert_ite, UnorderedMap.lookup_insert_ite]
        split_ifs with e
        · rw [e, hslot]
          rfl
        · rfl
    · have hget : ∀ limits, (h.setRateLimits caller.userId limits).getOrCreateChannel
          (sanitizeChannelName arg) = _ := fun _ => getOrCreateChannel_of_some hslot
      rw [hget]
      have hmay : JoinAdmitted v.now h caller.userId (arg :: rest) ↔
          MayJoin chan caller.userId := by
        simp only [JoinAdmitted, hslot, Option.getD_some]
        exact ⟨fun hadm => hadm.2.2, fun hmay => ⟨hvalid, hrate, hmay⟩⟩
      by_cases hban : caller.userId ∈ chan.banned
      · rw [if_pos hban]
        exact Or.inl ⟨fun hadm => (hmay.1 hadm).1 hban, _, _, _, rfl⟩
      rw [if_neg hban]
      by_cases hinvite : chan.inviteOnly ∧ caller.userId ∉ chan.invites ∧
          caller.userId ∉ chan.operators
      · rw [if_pos hinvite]
        refine Or.inl ⟨fun hadm => ?_, _, _, _, rfl⟩
        exact ((hmay.1 hadm).2 hinvite.1).elim hinvite.2.1 hinvite.2.2
      rw [if_neg hinvite]
      refine Or.inr ⟨hmay.2 ⟨hban, by tauto⟩, arg, rest,
        h.channels.insert (sanitizeChannelName arg) (addUser chan caller.userId),
        _, _, _, rfl, fun name => ?_, rfl⟩
      rw [UnorderedMap.lookup_insert_ite]
      split_ifs with e
      · rw [e, hslot]
        rfl
      · rfl

variable {h args caller} in
/-- A command that changes one channel only steps at every channel. -/
theorem ChannelStep.single {resolve : Str → Str} {u channel : Str} {kind : Option CommandKind}
    {slot : Option ChannelState}
    (hstep : ChannelStep resolve u channel kind args (h.channels.lookup channel) slot)
    (name : Str) :
    ChannelStep resolve u name kind args (h.channels.lookup name)
      (if name = channel then slot else h.channels.lookup name) := by
  split_ifs with e
  · rw [e]
    exact hstep
  · exact .same kind args _

theorem channelStep_cmdJoin (name : Str) :
    ChannelStep h.resolve caller.userId name (some .join) args (h.channels.lookup name)
      ((cmdJoin v h db args caller).handler.channels.lookup name) := by
  rcases cmdJoin_cases v h db args caller with
    ⟨-, _, _, _, hrefuse⟩ | ⟨hadm, arg, rest, channels, _, _, _, rfl, hlookup, haccept⟩
  · rw [hrefuse]
    exact .same _ _ _
  · rw [haccept]
    show ChannelStep _ _ _ _ _ _ (channels.lookup name)
    rw [hlookup]
    split_ifs with e
    · exact .join arg rest _ e (e ▸ hadm.2.2)
    · exact .same _ _ _

theorem channelStep_cmdPart (name : Str) :
    ChannelStep h.resolve caller.userId name (some .part) args (h.channels.lookup name)
      ((cmdPart v h db args caller).handler.channels.lookup name) := by
  unfold cmdPart
  cases args with
  | nil => exact .same _ _ _
  | cons channel rest =>
    dsimp only
    split
    · exact .same _ _ _
    rename_i chan hchan
    split
    · exact .same _ _ _
    rename_i hmember
    show ChannelStep _ _ _ _ _ _ ((h.setOrErase _ _).channels.lookup name)
    rw [lookup_setOrErase]
    refine .single ?_ name
    rw [hchan]
    exact .part rest chan (not_not.1 hmember)

theorem channelStep_cmdTopic (name : Str) :
    ChannelStep h.resolve caller.userId name (some .topic) args (h.channels.lookup name)
      ((cmdTopic v h db args caller).handler.channels.lookup name) := by
  unfold cmdTopic
  cases args with
  | nil => exact .same _ _ _
  | cons channel rest =>
    dsimp only
    split
    · exact .same _ _ _
    rename_i chan hchan
    split
    · exact .same _ _ _
    rename_i hmember
    cases rest with
    | nil => exact .same _ _ _
    | cons first rest =>
      dsimp only
      split
      · exact .same _ _ _
      rename_i hmay
      show ChannelStep _ _ _ _ _ _ ((h.setChannel _ _).channels.lookup name)
      rw [lookup_setChannel]
      refine .single ?_ name
      rw [hchan]
      exact .topic first rest chan (not_not.1 hmember) fun e => not_not.1 fun hop => hmay ⟨e, hop⟩

theorem channelStep_cmdKick (name : Str) :
    ChannelStep h.resolve caller.userId name (some .kick) args (h.channels.lookup name)
      ((cmdKick v h db args caller).handler.channels.lookup name) := by
  unfold cmdKick
  split
  · rename_i channel target rest
    dsimp only
    split
    · exact .same _ _ _
    rename_i chan hchan
    split
    · exact .same _ _ _
    rename_i hoperator
    split
    · exact .same _ _ _
    split
    · exact .same _ _ _
    rename_i hmember
    show ChannelStep _ _ _ _ _ _ ((h.setChannel _ _).channels.lookup name)
    rw [lookup_setChannel]
    refine .single ?_ name
    rw [hchan]
    exact .kick target rest chan (not_not.1 hoperator) (not_not.1 hmember)
  · exact .same _ _ _

theorem channelStep_cmdBan (name : Str) :
    ChannelStep h.resolve caller.userId name (some .ban) args (h.channels.lookup name)
      ((cmdBan v h db args caller).handler.channels.lookup name) := by
  unfold cmdBan
  split
  · rename_i channel target rest
    split
    · exact .same _ _ _
    rename_i chan hchan
    dsimp only
    split
    · exact .same _ _ _
    rename_i hoperator
    have hstep := @ChannelStep.ban h.resolve caller.userId channel target rest chan
      (not_not.1 hoperator)
    split
    · show ChannelStep _ _ _ _ _ _ ((h.setChannel _ _).channels.lookup name)
      rw [lookup_setChannel]
      refine .single ?_ name
      rw [hchan]
      exact hstep
    · rename_i hmember
      show ChannelStep _ _ _ _ _ _ ((h.setChannel _ _).channels.lookup name)
      rw [lookup_setChannel]
      refine .single ?_ name
      rw [UnorderedSet.erase_of_notMem hmember] at hstep
      rw [hchan]
      exact hstep
  · exact .same _ _ _

theorem channelStep_cmdInvite (name : Str) :
    ChannelStep h.resolve caller.userId name (some .invite) args (h.channels.lookup name)
      ((cmdInvite v h db args caller).handler.channels.lookup name) := by
  unfold cmdInvite
  split
  · rename_i channel target rest
    dsimp only
    split
    · exact .same _ _ _
    rename_i chan hchan
    split
    · exact .same _ _ _
    rename_i hoperator
    show ChannelStep _ _ _ _ _ _ ((h.setChannel _ _).channels.lookup name)
    rw [lookup_setChannel]
    refine .single ?_ name
    rw [hchan]
    exact .invite target rest chan (not_not.1 hoperator)
  · exact .same _ _ _

theorem channelStep_cmdSet (name : Str) :
    ChannelStep h.resolve caller.userId name (some .set) args (h.channels.lookup name)
      ((cmdSet h db args caller).handler.channels.lookup name) := by
  unfold cmdSet
  split
  · rename_i channel option value rest
    split
    · exact .same _ _ _
    rename_i chan hchan
    split
    · exact .same _ _ _
    rename_i hoperator
    have hstep := fun i m t => @ChannelStep.set h.resolve caller.userId channel option value rest
      chan i m t (not_not.1 hoperator)
    rw [← hchan] at hstep
    dsimp only
    split
    · rw [Outcome.accept, lookup_setChannel]
      exact .single (hstep _ _ _) name
    split
    · rw [Outcome.accept, lookup_setChannel]
      exact .single (hstep _ _ _) name
    split
    · rw [Outcome.accept, lookup_setChannel]
      exact .single (hstep _ _ _) name
    · exact .same _ _ _
  · exact .same _ _ _

theorem channelStep_cmdMode (name : Str) :
    ChannelStep h.resolve caller.userId name (some .mode) args (h.channels.lookup name)
      ((cmdMode h db args caller).handler.channels.lookup name) := by
  unfold cmdMode
  split
  · rename_i channel mode target rest
    split
    · exact .same _ _ _
    rename_i chan hchan
    split
    · exact .same _ _ _
    rename_i hoperator
    dsimp only
    split
    · exact .same _ _ _
    rename_i hmember
    have hop := fun give => @ChannelStep.modeOperator h.resolve caller.userId channel mode target
      rest chan give (not_not.1 hoperator) (not_not.1 hmember)
    have hvoice := fun give => @ChannelStep.modeVoice h.resolve caller.userId channel mode target
      rest chan give (not_not.1 hoperator) (not_not.1 hmember)
    rw [← hchan] at hop hvoice
    split
    · rw [Outcome.accept, lookup_setChannel]
      exact .single (hop true) name
    split
    · rw [Outcome.accept, lookup_setChannel]
      exact .single (hop false) name
    split
    · rw [Outcome.accept, lookup_setChannel]
      exact .single (hvoice true) name
    split
    · rw [Outcome.accept, lookup_setChannel]
      exact .single (hvoice false) name
    · exact .same _ _ _
  · exact .same _ _ _

/-! ## Leaving every channel -/

theorem lookup_partChannel (channel userId name : Str) :
    (h.partChannel channel userId).channels.lookup name =
      if name = channel then
        (h.channels.lookup name).bind fun chan => keepNonempty (removeUser chan userId)
      else h.channels.lookup name := by
  unfold partChannel
  split
  · rename_i hnone
    split_ifs with e
    · rw [e, hnone, Option.bind_none]
    · rfl
  · rename_i chan hchan
    rw [lookup_setOrErase]
    split_ifs with e
    · rw [e, hchan, Option.bind_some]
    · rfl

theorem lookup_foldl_partChannel (userId name : Str) {channels : List Str}
    (hnodup : channels.Nodup) :
    (channels.foldl (fun h channel => h.partChannel channel userId) h).channels.lookup name =
      if name ∈ channels then
        (h.channels.lookup name).bind fun chan => keepNonempty (removeUser chan userId)
      else h.channels.lookup name := by
  induction channels generalizing h with
  | nil => rfl
  | cons channel channels ih =>
    obtain ⟨hnotin, hnodup⟩ := List.nodup_cons.1 hnodup
    rw [List.foldl_cons, ih _ hnodup, lookup_partChannel]
    by_cases e : name = channel
    · rw [if_neg (e ▸ hnotin), if_pos e, if_pos (e ▸ List.mem_cons_self)]
    · simp only [List.mem_cons, e, false_or, if_false]

/-- The channels `cmd_quit` collects. -/
def channelsOf (userId : Str) : List Str :=
  (h.channels.entries.filter fun e => userId ∈ e.2.members).map (·.1)

theorem mem_channelsOf {userId name : Str} :
    name ∈ h.channelsOf userId ↔
      ∃ chan, h.channels.lookup name = some chan ∧ userId ∈ chan.members := by
  constructor
  · intro hmem
    obtain ⟨e, he, rfl⟩ := List.mem_map.1 hmem
    obtain ⟨hentry, hmember⟩ := List.mem_filter.1 he
    exact ⟨e.2, UnorderedMap.lookup_eq_some_of_mem_entries hentry, of_decide_eq_true hmember⟩
  · rintro ⟨chan, hchan, hmember⟩
    refine List.mem_map.2 ⟨⟨name, chan⟩, List.mem_filter.2 ⟨?_, decide_eq_true hmember⟩, rfl⟩
    exact AList.mem_lookup_iff.1 hchan

theorem nodup_channelsOf (userId : Str) : (h.channelsOf userId).Nodup :=
  List.Nodup.sublist (List.filter_sublist.map _) h.channels.nodupKeys

theorem cmdQuit_eq :
    ∃ actions, cmdQuit v h db args caller =
      .accept ((h.channelsOf caller.userId).foldl
          (fun h channel => h.partChannel channel caller.userId) h) db actions
        (str "Goodbye!") (str "quit") := by
  have hfold : ∀ (channels : List Str) (acc : CommandHandler × List Action),
      (channels.foldl (fun acc channel =>
        (acc.1.partChannel channel caller.userId,
          acc.2 ++ notifyChannelPart v (acc.1.partChannel channel caller.userId) channel)) acc).1 =
      channels.foldl (fun h channel => h.partChannel channel caller.userId) acc.1 := by
    intro channels
    induction channels with
    | nil => intro acc; rfl
    | cons channel channels ih => intro acc; exact ih _
  rw [← hfold (h.channelsOf caller.userId) (h, [])]
  exact ⟨_, rfl⟩

theorem channelStep_cmdQuit (name : Str) :
    ChannelStep h.resolve caller.userId name (some .quit) args (h.channels.lookup name)
      ((cmdQuit v h db args caller).handler.channels.lookup name) := by
  obtain ⟨actions, heq⟩ := cmdQuit_eq v h db args caller
  rw [heq, Outcome.accept, lookup_foldl_partChannel _ _ _ (h.nodup_channelsOf _)]
  split_ifs with hmem
  · obtain ⟨chan, hchan, hmember⟩ := (h.mem_channelsOf).1 hmem
    rw [hchan]
    exact .quit args chan hmember
  · exact .same _ _ _

/-! ## Every command -/

theorem handler_cmdNick_channels :
    (cmdNick v h db args caller).handler.channels = h.channels := by
  unfold cmdNick
  cases args with
  | nil => rfl
  | cons newNick rest =>
    dsimp only
    split <;> rfl

/-- A command that leaves the channels alone steps at every channel. -/
theorem ChannelStep.of_channels_eq {resolve : Str → Str} {u name : Str} {kind : Option CommandKind}
    {h' : CommandHandler} (e : h'.channels = h.channels) :
    ChannelStep resolve u name kind args (h.channels.lookup name) (h'.channels.lookup name) := by
  rw [e]
  exact .same kind args _

theorem channelStep_call (kind : CommandKind) (name : Str) :
    ChannelStep h.resolve caller.userId name (some kind) args (h.channels.lookup name)
      ((call kind v h db args caller).handler.channels.lookup name) := by
  cases kind with
  | join => exact channelStep_cmdJoin v h db args caller name
  | part => exact channelStep_cmdPart v h db args caller name
  | topic => exact channelStep_cmdTopic v h db args caller name
  | kick => exact channelStep_cmdKick v h db args caller name
  | ban => exact channelStep_cmdBan v h db args caller name
  | invite => exact channelStep_cmdInvite v h db args caller name
  | set => exact channelStep_cmdSet h db args caller name
  | mode => exact channelStep_cmdMode h db args caller name
  | quit => exact channelStep_cmdQuit v h db args caller name
  | nick => exact .of_channels_eq h args (handler_cmdNick_channels v h db args caller)
  | whois =>
    refine .of_channels_eq h args ?_
    show (cmdWhois v h db args).handler.channels = h.channels
    unfold cmdWhois
    split <;> rfl
  | me =>
    refine .of_channels_eq h args ?_
    show (cmdMe h db args caller).handler.channels = h.channels
    unfold cmdMe
    split <;> rfl
  | password =>
    refine .of_channels_eq h args ?_
    show (cmdPassword v h db args caller).handler.channels = h.channels
    unfold cmdPassword
    repeat' split
    all_goals rfl
  | msg =>
    refine .of_channels_eq h args ?_
    show (cmdMsg v h db args).handler.channels = h.channels
    unfold cmdMsg
    repeat' split
    all_goals rfl
  | resetdb =>
    refine .of_channels_eq h args ?_
    show (cmdResetdb h db caller).handler.channels = h.channels
    unfold cmdResetdb
    repeat' split
    all_goals rfl

/-! ## Nicknames -/

/-- The nickname maps after `cmd_nick` has given the user a new nickname. -/
def rename (userId newNick : Str) : CommandHandler :=
  { h with
    nickToUserId :=
      (h.nickToUserId.erase ((h.userIdToNick.lookup userId).getD userId)).insert newNick userId
    userIdToNick := h.userIdToNick.insert userId newNick }

/-- The nickname that `/nick` gives the user: the one asked for, unless another user has it. -/
def grantedNick (userId : Str) : List Str → Option Str
  | [] => none
  | newNick :: _ =>
    if (h.nickToUserId.lookup newNick).any fun owner => owner != userId then none
    else some newNick

theorem cmdNick_cases :
    (grantedNick h caller.userId args = none ∧
      ∃ message, cmdNick v h db args caller = .refuse h db message (str "nick")) ∨
    ∃ newNick db' actions message, grantedNick h caller.userId args = some newNick ∧
      cmdNick v h db args caller =
        .accept (h.rename caller.userId newNick) db' actions message (str "nick") := by
  unfold cmdNick grantedNick
  cases args with
  | nil => exact Or.inl ⟨rfl, _, rfl⟩
  | cons newNick rest =>
    dsimp only
    split
    · exact Or.inl ⟨rfl, _, rfl⟩
    · exact Or.inr ⟨newNick, _, _, _, rfl, rfl⟩

/-- Two handlers with the same nicknames. -/
def SameNicknames (h' : CommandHandler) : Prop :=
  h'.nickToUserId = h.nickToUserId ∧ h'.userIdToNick = h.userIdToNick

theorem sameNicknames_setOrErase (channel : Str) (chan : ChannelState) :
    SameNicknames h (h.setOrErase channel chan) := by
  unfold setOrErase
  split <;> exact ⟨rfl, rfl⟩

theorem sameNicknames_partChannel (channel userId : Str) :
    SameNicknames h (h.partChannel channel userId) := by
  unfold partChannel
  split
  · exact ⟨rfl, rfl⟩
  · exact sameNicknames_setOrErase h _ _

theorem sameNicknames_foldl_partChannel (userId : Str) (channels : List Str) :
    SameNicknames h (channels.foldl (fun h channel => h.partChannel channel userId) h) := by
  induction channels generalizing h with
  | nil => exact ⟨rfl, rfl⟩
  | cons channel channels ih =>
    have h₁ := sameNicknames_partChannel h channel userId
    have h₂ := ih (h.partChannel channel userId)
    exact ⟨h₂.1.trans h₁.1, h₂.2.trans h₁.2⟩

/-- How a call other than `/nick` ends: refused with nothing lasting done, or accepted with the
nicknames as they were. -/
inductive Ending : Outcome → Prop
  | refused (limits : UnorderedMap Str UserRateLimits) (records : UnorderedMap Str AbuseRecord)
      (message command : Str) : Ending (.refuse (h.withLimits limits records) db message command)
  | accepted (h' : CommandHandler) (db' : Database) (actions : List Action) (message command : Str)
      (names : SameNicknames h h') : Ending (.accept h' db' actions message command)

theorem Ending.refused' (message command : Str) : Ending h db (.refuse h db message command) :=
  .refused h.userRateLimits h.abuseRecords message command

variable {h db} in
/-- A refused call leaves channels, nicknames and tables alone. -/
theorem Ending.of_refused {o : Outcome} (hend : Ending h db o)
    (hrefused : o.response.success = false) :
    (∃ limits records, o.handler = h.withLimits limits records) ∧ o.db = db := by
  cases hend with
  | refused limits records message command => exact ⟨⟨limits, records, rfl⟩, rfl⟩
  | accepted h' db' actions message command names => cases hrefused

variable {h db} in
theorem Ending.sameNicknames {o : Outcome} (hend : Ending h db o) : SameNicknames h o.handler := by
  cases hend with
  | refused limits records message command => exact ⟨rfl, rfl⟩
  | accepted h' db' actions message command names => exact names

/-! ### Each command ends so -/

theorem ending_cmdJoin : Ending h db (cmdJoin v h db args caller) := by
  rcases cmdJoin_cases v h db args caller with
    ⟨-, _, _, _, e⟩ | ⟨-, _, _, _, _, _, _, -, -, e⟩
  · rw [e]
    exact .refused _ _ _ _
  · rw [e]
    exact .accepted _ _ _ _ _ ⟨rfl, rfl⟩

theorem ending_cmdPart : Ending h db (cmdPart v h db args caller) := by
  unfold cmdPart
  dsimp only
  repeat' split
  all_goals
    first
    | exact .refused' h db _ _
    | exact .accepted _ _ _ _ _ (sameNicknames_setOrErase h _ _)

theorem ending_cmdWhois : Ending h db (cmdWhois v h db args) := by
  unfold cmdWhois
  dsimp only
  repeat' split
  all_goals first | exact .refused' h db _ _ | exact .accepted _ _ _ _ _ ⟨rfl, rfl⟩

theorem ending_cmdMe : Ending h db (cmdMe h db args caller) := by
  unfold cmdMe
  repeat' split
  all_goals first | exact .refused' h db _ _ | exact .accepted _ _ _ _ _ ⟨rfl, rfl⟩

theorem ending_cmdTopic : Ending h db (cmdTopic v h db args caller) := by
  unfold cmdTopic
  dsimp only
  repeat' split
  all_goals first | exact .refused' h db _ _ | exact .accepted _ _ _ _ _ ⟨rfl, rfl⟩

theorem ending_cmdKick : Ending h db (cmdKick v h db args caller) := by
  unfold cmdKick
  dsimp only
  repeat' split
  all_goals first | exact .refused' h db _ _ | exact .accepted _ _ _ _ _ ⟨rfl, rfl⟩

theorem ending_cmdBan : Ending h db (cmdBan v h db args caller) := by
  unfold cmdBan
  dsimp only
  repeat' split
  all_goals first | exact .refused' h db _ _ | exact .accepted _ _ _ _ _ ⟨rfl, rfl⟩

theorem ending_cmdInvite : Ending h db (cmdInvite v h db args caller) := by
  unfold cmdInvite
  dsimp only
  repeat' split
  all_goals first | exact .refused' h db _ _ | exact .accepted _ _ _ _ _ ⟨rfl, rfl⟩

theorem ending_cmdSet : Ending h db (cmdSet h db args caller) := by
  unfold cmdSet
  dsimp only
  repeat' split
  all_goals first | exact .refused' h db _ _ | exact .accepted _ _ _ _ _ ⟨rfl, rfl⟩

theorem ending_cmdMode : Ending h db (cmdMode h db args caller) := by
  unfold cmdMode
  dsimp only
  repeat' split
  all_goals first | exact .refused' h db _ _ | exact .accepted _ _ _ _ _ ⟨rfl, rfl⟩

theorem ending_cmdMsg : Ending h db (cmdMsg v h db args) := by
  unfold cmdMsg
  repeat' split
  all_goals first | exact .refused' h db _ _ | exact .accepted _ _ _ _ _ ⟨rfl, rfl⟩

/-- A password that cannot be stored is refused with the tables as they were. -/
theorem ending_cmdPassword : Ending h db (cmdPassword v h db args caller) := by
  unfold cmdPassword
  repeat' split
  any_goals exact .refused' h db _ _
  · exact .accepted _ _ _ _ _ ⟨rfl, rfl⟩
  · rename_i db' hupdate
    rw [UserStore.updatePassword_of_false hupdate]
    exact .refused' h db _ _

theorem ending_cmdQuit : Ending h db (cmdQuit v h db args caller) := by
  obtain ⟨actions, e⟩ := cmdQuit_eq v h db args caller
  rw [e]
  exact .accepted _ _ _ _ _ (sameNicknames_foldl_partChannel h _ _)

theorem ending_cmdResetdb : Ending h db (cmdResetdb h db caller) := by
  unfold cmdResetdb
  dsimp only
  repeat' split
  all_goals first | exact .refused' h db _ _ | exact .accepted _ _ _ _ _ ⟨rfl, rfl⟩

theorem ending_call {kind : CommandKind} (hkind : kind ≠ .nick) :
    Ending h db (call kind v h db args caller) := by
  cases kind with
  | nick => exact absurd rfl hkind
  | join => exact ending_cmdJoin v h db args caller
  | part => exact ending_cmdPart v h db args caller
  | whois => exact ending_cmdWhois v h db args
  | me => exact ending_cmdMe h db args caller
  | topic => exact ending_cmdTopic v h db args caller
  | kick => exact ending_cmdKick v h db args caller
  | ban => exact ending_cmdBan v h db args caller
  | invite => exact ending_cmdInvite v h db args caller
  | set => exact ending_cmdSet h db args caller
  | mode => exact ending_cmdMode h db args caller
  | msg => exact ending_cmdMsg v h db args
  | password => exact ending_cmdPassword v h db args caller
  | quit => exact ending_cmdQuit v h db args caller
  | resetdb => exact ending_cmdResetdb h db caller

end Steps

/-! ## One step of a run -/

variable (h : CommandHandler) (i : CommandInput)

/-- Every channel takes one of the steps of `ChannelStep`. -/
theorem channelStep_step (name : Str) :
    ChannelStep h.resolve i.caller.userId name (i.kind h) i.cmd.args (h.channels.lookup name)
      ((h.step i).channels.lookup name) := by
  unfold step
  cases hkind : i.kind h with
  | none =>
    obtain ⟨_, _, _, _, e⟩ := CommandInput.outcome_of_kind_eq_none hkind
    rw [e]
    exact .same _ _ _
  | some kind =>
    obtain ⟨limits, records, e, -⟩ := CommandInput.outcome_of_kind_eq_some hkind
    rw [e]
    exact channelStep_call i.services (h.withLimits limits records) i.db i.cmd.args i.caller kind
      name

/-- A refused command leaves channels, nicknames and tables alone. -/
theorem step_of_refused (hrefused : (i.outcome h).response.success = false) :
    (∃ limits records, h.step i = h.withLimits limits records) ∧ (i.outcome h).db = i.db := by
  unfold step
  cases hkind : i.kind h with
  | none =>
    obtain ⟨limits, records, _, _, e⟩ := CommandInput.outcome_of_kind_eq_none hkind
    rw [e]
    exact ⟨⟨limits, records, rfl⟩, rfl⟩
  | some kind =>
    obtain ⟨limits, records, e, -⟩ := CommandInput.outcome_of_kind_eq_some hkind
    rw [e] at hrefused ⊢
    by_cases hnick : kind = .nick
    · subst hnick
      rcases cmdNick_cases i.services (h.withLimits limits records) i.db i.cmd.args i.caller with
        ⟨-, message, e⟩ | ⟨newNick, db', actions, message, -, e⟩
      · show (∃ _ _, (cmdNick _ _ _ _ _).handler = _) ∧ (cmdNick _ _ _ _ _).db = _
        rw [e]
        exact ⟨⟨limits, records, rfl⟩, rfl⟩
      · have : (cmdNick _ _ _ _ _).response.success = false := hrefused
        rw [e] at this
        cases this
    · exact (ending_call i.services _ i.db i.cmd.args i.caller hnick).of_refused hrefused

/-- The nickname that the command gives its user. -/
def newNick : Option Str :=
  if i.kind h = some .nick then grantedNick h i.caller.userId i.cmd.args else none

/-- The nicknames after a command: as before, or with the user renamed. -/
theorem sameNicknames_step :
    SameNicknames (match newNick h i with
      | none => h
      | some nick => h.rename i.caller.userId nick) (h.step i) := by
  unfold step newNick
  cases hkind : i.kind h with
  | none =>
    obtain ⟨_, _, _, _, e⟩ := CommandInput.outcome_of_kind_eq_none hkind
    rw [e]
    exact ⟨rfl, rfl⟩
  | some kind =>
    obtain ⟨limits, records, e, -⟩ := CommandInput.outcome_of_kind_eq_some hkind
    rw [e]
    by_cases hnick : kind = .nick
    · subst hnick
      rw [if_pos rfl]
      rcases cmdNick_cases i.services (h.withLimits limits records) i.db i.cmd.args i.caller with
        ⟨hnone, message, e⟩ | ⟨newNick, db', actions, message, hsome, e⟩
      · have hnone' : grantedNick h i.caller.userId i.cmd.args = none := hnone
        show SameNicknames _ (cmdNick _ _ _ _ _).handler
        rw [e, hnone']
        exact ⟨rfl, rfl⟩
      · have hsome' : grantedNick h i.caller.userId i.cmd.args = some newNick := hsome
        show SameNicknames _ (cmdNick _ _ _ _ _).handler
        rw [e, hsome']
        exact ⟨rfl, rfl⟩
    · rw [if_neg fun e => hnick (Option.some.inj e)]
      exact (ending_call i.services _ i.db i.cmd.args i.caller hnick).sameNicknames

end CommandHandler

end Ircord

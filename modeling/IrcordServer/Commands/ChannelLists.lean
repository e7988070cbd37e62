import IrcordServer.Commands.Effects
import IrcordServer.Commands.Steps

/-!
# What the members of a channel know of it

A command that changes who is in a channel sends the user list to the members, and so do some that
do not.  The last list of a channel that a session of a member was sent was made when the channel
had the members that it has now (`members_see_lists`).
-/

open Container Run

namespace Ircord

namespace CommandHandler

/-- A user list that was sent to a session, by the state of the handler that it was made from. -/
structure ListSent where
  session : SessionId
  channel : Str
  handler : CommandHandler

namespace ListSent

/-- The text of the list. -/
def text (l : ListSent) : Str :=
  match l.handler.channels.lookup l.channel with
  | none => []
  | some chan => l.handler.userList l.channel chan

def action (codec : Codec) (l : ListSent) : Action :=
  .send l.session (responseEnvelope codec (makeResponse true l.text (str "names")))

end ListSent

/-- An action that is no user list. -/
inductive Aside (codec : Codec) : Action → Prop
  | response (session : SessionId) (response : CommandResponse)
      (other : response.command ≠ str "names") :
      Aside codec (.send session (responseEnvelope codec response))
  | nickChange (session : SessionId) (change : NickChange) :
      Aside codec (.send session (nickChangeEnvelope codec change))
  | disconnect (session : SessionId) (reason : Str) : Aside codec (.disconnect session reason)

section Lists

variable (v : Services) (h : CommandHandler)

/-- The lists of a channel that `broadcast_user_list` sends. -/
def channelLists (channel : Str) : List ListSent :=
  match h.channels.lookup channel with
  | none => []
  | some chan => (chan.members.elems.filterMap v.findSession).map fun s => ⟨s, channel, h⟩

/-- The channels whose lists an accepted command sends. -/
def listedChannels (kind : Option CommandKind) (args : List Str) (userId : Str) : List Str :=
  match kind, args with
  | some .join, arg :: _ => [sanitizeChannelName arg]
  | some .part, channel :: _ => [channel]
  | some .topic, channel :: _ :: _ => [channel]
  | some .kick, channel :: _ => [channel]
  | some .ban, channel :: target :: _ =>
    if (h.channels.lookup channel).any fun chan => h.resolve target ∈ chan.members then [channel]
    else []
  | some .quit, _ => h.channelsOf userId
  | _, _ => []

/-- The lists that an accepted command sends: to the members of the channels, and for `/join` once
more to the session it came from. -/
def listsSent (kind : Option CommandKind) (args : List Str) (caller : Caller)
    (h' : CommandHandler) : List ListSent :=
  (h.listedChannels kind args caller.userId).flatMap fun channel =>
    channelLists v h' channel ++
      if kind = some .join then [⟨caller.session, channel, h'⟩] else []

end Lists

variable {v : Services} {h h' : CommandHandler} {db : Database} {args : List Str} {caller : Caller}
  {channel : Str}

/-! ## Each command sends these lists -/

/-- The actions are the lists, and others behind them. -/
def SendsLists (codec : Codec) (lists : List ListSent) (actions : List Action) : Prop :=
  ∃ asides, actions = lists.map (·.action codec) ++ asides ∧ ∀ a ∈ asides, Aside codec a

theorem sendsLists_nil (codec : Codec) : SendsLists codec [] [] :=
  ⟨[], rfl, List.forall_mem_nil _⟩

theorem sendsLists_asides {codec : Codec} {asides : List Action} (h : ∀ a ∈ asides, Aside codec a) :
    SendsLists codec [] asides :=
  ⟨asides, rfl, h⟩

theorem broadcastUserList_eq (v : Services) (h : CommandHandler) (channel : Str) :
    broadcastUserList v h channel = (channelLists v h channel).map (·.action v.codec) := by
  unfold broadcastUserList channelLists
  cases hchan : h.channels.lookup channel with
  | none => rfl
  | some chan =>
    dsimp only
    rw [List.map_map]
    refine List.map_congr_left fun s _ => ?_
    show _ = Action.send s (responseEnvelope v.codec (makeResponse true
      (ListSent.text ⟨s, channel, h⟩) (str "names")))
    unfold ListSent.text
    rw [hchan]

theorem sendUserList_eq {chan : ChannelState} (hchan : h.channels.lookup channel = some chan)
    (session : SessionId) :
    sendUserList v h channel session = [(⟨session, channel, h⟩ : ListSent).action v.codec] := by
  unfold sendUserList ListSent.action ListSent.text
  rw [hchan]

/-- The list looks at the nicknames and at one channel. -/
theorem broadcastUserList_congr (hnames : SameNicknames h h')
    (hchan : h'.channels.lookup channel = h.channels.lookup channel) :
    broadcastUserList v h' channel = broadcastUserList v h channel := by
  have hdisplay : h'.displayName = h.displayName := by
    funext u
    rw [displayName, displayName, hnames.2]
  unfold broadcastUserList
  rw [hchan]
  cases h.channels.lookup channel with
  | none => rfl
  | some chan =>
    dsimp only
    unfold userList
    rw [hdisplay]

/-- A channel that nobody is in is listed to nobody. -/
theorem broadcastUserList_setOrErase (h : CommandHandler) (channel : Str) (chan : ChannelState) :
    broadcastUserList v (h.setOrErase channel chan) channel =
      broadcastUserList v (h.setChannel channel chan) channel := by
  unfold setOrErase
  split_ifs with hempty
  · have hnil : chan.members.elems = [] := List.length_eq_zero_iff.1 hempty
    unfold broadcastUserList
    rw [lookup_eraseChannel, lookup_setChannel, if_pos rfl, if_pos rfl]
    dsimp only
    rw [hnil]
    rfl
  · rfl

theorem aside_toTarget (codec : Codec) (found : Option SessionId) {response : CommandResponse}
    (hother : response.command ≠ str "names") :
    ∀ a ∈ found.toList.map fun session => Action.send session (responseEnvelope codec response),
      Aside codec a := by
  intro a ha
  obtain ⟨session, -, rfl⟩ := List.mem_map.1 ha
  exact .response session response hother

theorem listsSent_singleton {kind : Option CommandKind} (hkind : kind ≠ some .join)
    (hlisted : h.listedChannels kind args caller.userId = [channel]) :
    listsSent v h kind args caller h' = channelLists v h' channel := by
  unfold listsSent
  rw [hlisted, List.flatMap_singleton, if_neg hkind, List.append_nil]

theorem listsSent_nil {kind : Option CommandKind}
    (hlisted : h.listedChannels kind args caller.userId = []) :
    listsSent v h kind args caller h' = [] := by
  unfold listsSent
  rw [hlisted]
  rfl

/-- The lists of a call with this outcome. -/
def outcomeLists (v : Services) (h : CommandHandler) (kind : Option CommandKind) (args : List Str)
    (caller : Caller) (o : Outcome) : List ListSent :=
  if o.response.success then listsSent v h kind args caller o.handler else []

def Lists (v : Services) (h : CommandHandler) (kind : CommandKind) (args : List Str)
    (caller : Caller) (o : Outcome) : Prop :=
  SendsLists v.codec (outcomeLists v h (some kind) args caller o) o.actions

section Calls

variable {kind : CommandKind}

theorem lists_refuse (message command : Str) :
    Lists v h kind args caller (.refuse h' db message command) :=
  sendsLists_nil _

/-- An accepted command that sends the list of one channel, and other messages. -/
theorem lists_accept (hkind : kind ≠ .join) {asides : List Action} (message command : Str)
    (hlisted : h.listedChannels (some kind) args caller.userId = [channel])
    (hasides : ∀ a ∈ asides, Aside v.codec a) :
    Lists v h kind args caller
      (.accept h' db (broadcastUserList v h' channel ++ asides) message command) := by
  refine ⟨asides, ?_, hasides⟩
  show _ = (listsSent v h (some kind) args caller h').map _ ++ asides
  rw [listsSent_singleton (fun e => hkind (Option.some.inj e)) hlisted, ← broadcastUserList_eq]
  rfl

/-- An accepted command that sends no list. -/
theorem lists_asides {actions : List Action} (message command : Str)
    (hlisted : h.listedChannels (some kind) args caller.userId = [])
    (hactions : ∀ a ∈ actions, Aside v.codec a) :
    Lists v h kind args caller (.accept h' db actions message command) := by
  show SendsLists v.codec (listsSent v h (some kind) args caller h') actions
  rw [listsSent_nil hlisted]
  exact sendsLists_asides hactions

/-- An accepted `/join` sends the list to the members, and to its session. -/
theorem lists_join {arg : Str} {rest : List Str} {chan : ChannelState} (message command : Str)
    (hchan : h'.channels.lookup (sanitizeChannelName arg) = some chan) :
    Lists v h .join (arg :: rest) caller
      (.accept h' db (notifyChannelJoin v h' (sanitizeChannelName arg) ++
        sendUserList v h' (sanitizeChannelName arg) caller.session) message command) := by
  refine ⟨[], ?_, List.forall_mem_nil _⟩
  have hlists : outcomeLists v h (some .join) (arg :: rest) caller
      (.accept h' db (notifyChannelJoin v h' (sanitizeChannelName arg) ++
        sendUserList v h' (sanitizeChannelName arg) caller.session) message command) =
      channelLists v h' (sanitizeChannelName arg) ++
        [⟨caller.session, sanitizeChannelName arg, h'⟩] :=
    List.flatMap_singleton _ _
  rw [hlists, List.append_nil, List.map_append, ← broadcastUserList_eq, List.map_singleton,
    ← sendUserList_eq hchan]
  rfl

theorem lists_cmdJoin : Lists v h .join args caller (cmdJoin v h db args caller) := by
  cases args with
  | nil => exact lists_refuse _ _
  | cons arg rest =>
    unfold cmdJoin
    dsimp only
    repeat' split
    any_goals exact lists_refuse _ _
    all_goals exact lists_join _ _ (by rw [lookup_setChannel, if_pos rfl])

theorem lists_cmdPart : Lists v h .part args caller (cmdPart v h db args caller) := by
  cases args with
  | nil => exact lists_refuse _ _
  | cons channel rest =>
    unfold cmdPart
    dsimp only
    split
    · exact lists_refuse _ _
    split
    · exact lists_refuse _ _
    · unfold notifyChannelPart
      rw [← broadcastUserList_setOrErase, ← List.append_nil (broadcastUserList v _ _)]
      exact lists_accept (by decide) _ _ rfl (List.forall_mem_nil _)

theorem lists_cmdTopic : Lists v h .topic args caller (cmdTopic v h db args caller) := by
  unfold cmdTopic
  cases args with
  | nil => exact lists_refuse _ _
  | cons channel rest =>
    dsimp only
    split
    · exact lists_refuse _ _
    split
    · exact lists_refuse _ _
    · cases rest with
      | nil => exact lists_asides _ _ rfl (List.forall_mem_nil _)
      | cons first rest =>
        dsimp only
        split
        · exact lists_refuse _ _
        · unfold notifyChannelJoin
          rw [← List.append_nil (broadcastUserList v _ _)]
          exact lists_accept (by decide) _ _ rfl (List.forall_mem_nil _)

theorem lists_cmdKick : Lists v h .kick args caller (cmdKick v h db args caller) := by
  unfold cmdKick
  split
  · dsimp only
    split
    · exact lists_refuse _ _
    split
    · exact lists_refuse _ _
    split
    · exact lists_refuse _ _
    split
    · exact lists_refuse _ _
    · exact lists_accept (by decide) _ _ rfl
        (aside_toTarget v.codec _ (show str "kick" ≠ str "names" by decide))
  · exact lists_refuse _ _

theorem lists_cmdBan : Lists v h .ban args caller (cmdBan v h db args caller) := by
  unfold cmdBan
  split
  · rename_i channel target rest
    split
    · exact lists_refuse _ _
    rename_i chan hchan
    dsimp only
    split
    · exact lists_refuse _ _
    split
    · rename_i hmember
      have hlisted : h.listedChannels (some .ban) (channel :: target :: rest) caller.userId =
          [channel] := by
        show (if _ then _ else _) = _
        rw [hchan, Option.any_some, if_pos (decide_eq_true hmember)]
      unfold notifyChannelPart
      rw [← List.append_nil (broadcastUserList v _ _)]
      exact lists_accept (by decide) _ _ hlisted (List.forall_mem_nil _)
    · rename_i hmember
      have hlisted : h.listedChannels (some .ban) (channel :: target :: rest) caller.userId =
          [] := by
        show (if _ then _ else _) = _
        rw [hchan, Option.any_some, if_neg (by simpa using hmember)]
      exact lists_asides _ _ hlisted (List.forall_mem_nil _)
  · exact lists_refuse _ _

theorem lists_cmdInvite : Lists v h .invite args caller (cmdInvite v h db args caller) := by
  unfold cmdInvite
  split
  · dsimp only
    split
    · exact lists_refuse _ _
    split
    · exact lists_refuse _ _
    · exact lists_asides _ _ rfl
        (aside_toTarget v.codec _ (show str "invite" ≠ str "names" by decide))
  · exact lists_refuse _ _

theorem aside_broadcastNickChange (userId : Str) (change : NickChange) :
    ∀ a ∈ (broadcastNickChange v h db userId change).2, Aside v.codec a := by
  unfold broadcastNickChange
  refine Action.forall_mem_foldl (fun acc entry hacc => ?_) _ _ (List.forall_mem_nil _)
  split_ifs
  · refine List.forall_mem_append.2 ⟨hacc, ?_⟩
    unfold broadcastToChannel
    split
    · exact List.forall_mem_nil _
    · refine Action.forall_mem_foldl (fun acc userId hacc => ?_) _ _ (List.forall_mem_nil _)
      split
      · exact List.forall_mem_append.2
          ⟨hacc, List.forall_mem_singleton.2 (.nickChange _ change)⟩
      · exact hacc
  · exact hacc

theorem lists_cmdNick : Lists v h .nick args caller (cmdNick v h db args caller) := by
  unfold cmdNick
  split
  · exact lists_refuse _ _
  · dsimp only
    split
    · exact lists_refuse _ _
    · exact lists_asides _ _ rfl (aside_broadcastNickChange _ _)

/-- The lists of the channels that the loop of `cmd_quit` leaves, by the state behind the loop. -/
theorem actions_foldl_partChannel (userId : Str) {channels : List Str} (hnodup : channels.Nodup)
    (h : CommandHandler) (actions : List Action) :
    (channels.foldl (fun acc channel =>
        (acc.1.partChannel channel userId,
          acc.2 ++ notifyChannelPart v (acc.1.partChannel channel userId) channel))
        (h, actions)).2 =
      actions ++ channels.flatMap fun channel => broadcastUserList v
        (channels.foldl (fun h channel => h.partChannel channel userId) h) channel := by
  induction channels generalizing h actions with
  | nil => rw [List.flatMap_nil, List.append_nil]; rfl
  | cons channel channels ih =>
    obtain ⟨hnotin, hnodup⟩ := List.nodup_cons.1 hnodup
    have hlist : broadcastUserList v (channels.foldl (fun h channel => h.partChannel channel userId)
        (h.partChannel channel userId)) channel =
          broadcastUserList v (h.partChannel channel userId) channel := by
      refine broadcastUserList_congr (sameNicknames_foldl_partChannel _ userId channels) ?_
      rw [lookup_foldl_partChannel _ _ _ hnodup, if_neg hnotin]
    rw [List.foldl_cons, ih hnodup, List.flatMap_cons, List.foldl_cons, hlist, List.append_assoc]
    rfl

theorem handler_foldl_partChannel (userId : Str) (channels : List Str)
    (acc : CommandHandler × List Action) :
    (channels.foldl (fun acc channel =>
        (acc.1.partChannel channel userId,
          acc.2 ++ notifyChannelPart v (acc.1.partChannel channel userId) channel)) acc).1 =
      channels.foldl (fun h channel => h.partChannel channel userId) acc.1 := by
  induction channels generalizing acc with
  | nil => rfl
  | cons channel channels ih => exact ih _

theorem listsSent_quit (h' : CommandHandler) :
    listsSent v h (some .quit) args caller h' =
      (h.channelsOf caller.userId).flatMap fun channel => channelLists v h' channel := by
  unfold listsSent
  simp only [reduceCtorEq, Option.some.injEq, if_false, List.append_nil]
  rfl

theorem lists_cmdQuit : Lists v h .quit args caller (cmdQuit v h db args caller) := by
  let channels := h.channelsOf caller.userId
  refine ⟨[.disconnect caller.session (str "Quit: " ++ args.head?.getD (str "Quit"))], ?_,
    List.forall_mem_singleton.2 (.disconnect _ _)⟩
  show (channels.foldl (fun acc channel =>
      (acc.1.partChannel channel caller.userId,
        acc.2 ++ notifyChannelPart v (acc.1.partChannel channel caller.userId) channel))
      (h, [])).2 ++ _ =
    (listsSent v h (some .quit) args caller (channels.foldl _ (h, [])).1).map _ ++ _
  rw [listsSent_quit, handler_foldl_partChannel,
    actions_foldl_partChannel _ (h.nodup_channelsOf _), List.nil_append, List.map_flatMap]
  simp only [broadcastUserList_eq]
  rfl

/-- The actions of a call are the lists it sends, and messages that are no lists. -/
theorem lists_call (kind : CommandKind) :
    Lists v h kind args caller (call kind v h db args caller) := by
  cases kind with
  | join => exact lists_cmdJoin
  | part => exact lists_cmdPart
  | topic => exact lists_cmdTopic
  | kick => exact lists_cmdKick
  | ban => exact lists_cmdBan
  | invite => exact lists_cmdInvite
  | nick => exact lists_cmdNick
  | quit => exact lists_cmdQuit
  | whois =>
    show Lists v h .whois args caller (cmdWhois v h db args)
    unfold cmdWhois
    split
    · exact lists_refuse _ _
    · exact lists_asides _ _ rfl (List.forall_mem_nil _)
  | me =>
    show Lists v h .me args caller (cmdMe h db args caller)
    unfold cmdMe
    split
    · exact lists_refuse _ _
    · exact lists_asides _ _ rfl (List.forall_mem_nil _)
  | set =>
    show Lists v h .set args caller (cmdSet h db args caller)
    unfold cmdSet
    dsimp only
    repeat' split
    any_goals exact lists_refuse _ _
    all_goals exact lists_asides _ _ rfl (List.forall_mem_nil _)
  | mode =>
    show Lists v h .mode args caller (cmdMode h db args caller)
    unfold cmdMode
    dsimp only
    repeat' split
    any_goals exact lists_refuse _ _
    all_goals exact lists_asides _ _ rfl (List.forall_mem_nil _)
  | password =>
    show Lists v h .password args caller (cmdPassword v h db args caller)
    unfold cmdPassword
    repeat' split
    any_goals exact lists_refuse _ _
    exact lists_asides _ _ rfl (List.forall_mem_nil _)
  | msg =>
    show Lists v h .msg args caller (cmdMsg v h db args)
    unfold cmdMsg
    repeat' split
    any_goals exact lists_refuse _ _
    exact lists_asides _ _ rfl (List.forall_mem_nil _)
  | resetdb =>
    show Lists v h .resetdb args caller (cmdResetdb h db caller)
    unfold cmdResetdb
    split
    · exact lists_refuse _ _
    split
    · exact lists_refuse _ _
    · exact lists_asides _ _ rfl (List.forall_mem_nil _)

end Calls

end CommandHandler

/-- The lists that a command sends. -/
def CommandInput.lists (i : CommandInput) (h : CommandHandler) : List CommandHandler.ListSent :=
  CommandHandler.outcomeLists i.services h (i.kind h) i.cmd.args i.caller (i.outcome h)

namespace CommandHandler

section Step

variable {h : CommandHandler} {i : CommandInput} {name : Str}

theorem sendsLists_outcome (h : CommandHandler) (i : CommandInput) :
    SendsLists i.services.codec (i.lists h) (i.outcome h).actions := by
  unfold CommandInput.lists
  cases hkind : i.kind h with
  | none =>
    obtain ⟨_, _, _, _, e⟩ := CommandInput.outcome_of_kind_eq_none hkind
    rw [e]
    exact sendsLists_nil _
  | some kind =>
    obtain ⟨limits, records, e, -⟩ := CommandInput.outcome_of_kind_eq_some hkind
    rw [e]
    exact @lists_call i.services (h.withLimits limits records) i.db i.cmd.args i.caller kind

theorem mem_lists {l : ListSent} (hl : l ∈ i.lists h) :
    (i.outcome h).response.success = true ∧
      l.channel ∈ h.listedChannels (i.kind h) i.cmd.args i.caller.userId ∧
      l.handler = h.step i := by
  unfold CommandInput.lists outcomeLists at hl
  split_ifs at hl with hsuccess
  swap
  · cases hl
  obtain ⟨channel, hchannel, hl⟩ := List.mem_flatMap.1 hl
  have hl' : l.channel = channel ∧ l.handler = h.step i := by
    rcases List.mem_append.1 hl with hl | hl
    · unfold channelLists at hl
      split at hl
      · cases hl
      · obtain ⟨s, -, rfl⟩ := List.mem_map.1 hl
        exact ⟨rfl, rfl⟩
    · split_ifs at hl
      · cases List.mem_singleton.1 hl
        exact ⟨rfl, rfl⟩
      · cases hl
  exact ⟨hsuccess, hl'.1 ▸ hchannel, hl'.2⟩

/-- A member who is found gets the list. -/
theorem mem_lists_of_member {u : Str} {s : SessionId} {chan : ChannelState}
    (hsuccess : (i.outcome h).response.success = true)
    (hlisted : name ∈ h.listedChannels (i.kind h) i.cmd.args i.caller.userId)
    (hchan : (h.step i).channels.lookup name = some chan) (hu : u ∈ chan.members)
    (hfound : i.services.findSession u = some s) : ⟨s, name, h.step i⟩ ∈ i.lists h := by
  unfold CommandInput.lists outcomeLists
  rw [if_pos hsuccess]
  refine List.mem_flatMap.2 ⟨name, hlisted, List.mem_append_left _ ?_⟩
  show _ ∈ channelLists i.services (h.step i) name
  unfold channelLists
  rw [hchan]
  exact List.mem_map.2 ⟨s, List.mem_filterMap.2 ⟨u, hu, hfound⟩, rfl⟩

/-- A command that does not send the list of a channel keeps its members. -/
theorem ChannelStep.members_of_unlisted {u : Str} {kind : Option CommandKind} {args : List Str}
    {slot' : Option ChannelState} {chan' : ChannelState}
    (hstep : ChannelStep h.resolve u name kind args (h.channels.lookup name) slot')
    (hunlisted : name ∉ h.listedChannels kind args u) (hchan' : slot' = some chan') :
    ∃ chan, h.channels.lookup name = some chan ∧ chan.members = chan'.members := by
  generalize hslot : h.channels.lookup name = slot at hstep ⊢
  cases hstep with
  | same => exact ⟨chan', hchan', rfl⟩
  | join arg rest slot named may => exact absurd (List.mem_singleton.2 named) hunlisted
  | part rest chan member => exact absurd (List.mem_singleton.2 rfl) hunlisted
  | quit args chan member => exact absurd (h.mem_channelsOf.2 ⟨chan, hslot, member⟩) hunlisted
  | topic first rest chan member may => exact absurd (List.mem_singleton.2 rfl) hunlisted
  | kick target rest chan operator member => exact absurd (List.mem_singleton.2 rfl) hunlisted
  | ban target rest chan operator =>
    have hmember : h.resolve target ∉ chan.members := by
      intro hmember
      refine hunlisted ?_
      unfold listedChannels
      dsimp only
      rw [hslot, Option.any_some, if_pos (decide_eq_true hmember)]
      exact List.mem_singleton.2 rfl
    cases hchan'
    exact ⟨chan, rfl, (UnorderedSet.erase_of_notMem hmember).symm⟩
  | invite target rest chan operator =>
    cases hchan'
    exact ⟨chan, rfl, rfl⟩
  | set option value rest chan inviteOnly moderated topicRestricted operator =>
    cases hchan'
    exact ⟨chan, rfl, rfl⟩
  | modeOperator mode target rest chan give operator member =>
    cases hchan'
    exact ⟨chan, rfl, rfl⟩
  | modeVoice mode target rest chan give operator member =>
    cases hchan'
    exact ⟨chan, rfl, rfl⟩

theorem members_of_unlisted {chan' : ChannelState}
    (hunlisted : ¬ ((i.outcome h).response.success = true ∧
      name ∈ h.listedChannels (i.kind h) i.cmd.args i.caller.userId))
    (hchan' : (h.step i).channels.lookup name = some chan') :
    ∃ chan, h.channels.lookup name = some chan ∧ chan.members = chan'.members := by
  cases hsuccess : (i.outcome h).response.success with
  | false =>
    obtain ⟨⟨limits, records, e⟩, -⟩ := step_of_refused h i hsuccess
    rw [e] at hchan'
    exact ⟨chan', hchan', rfl⟩
  | true =>
    exact (channelStep_step h i name).members_of_unlisted
      (fun hlisted => hunlisted ⟨hsuccess, hlisted⟩) hchan'

end Step

/-! ## Runs -/

/-- The last list of a channel that was sent to a session. -/
def lastList (log : List ListSent) (s : SessionId) (channel : Str) : Option ListSent :=
  (log.filter fun l => decide (l.session = s ∧ l.channel = channel)).getLast?

section Last

variable {log new : List ListSent} {s : SessionId}

theorem lastList_append_of_none (h : ∀ l ∈ new, l.channel ≠ channel) :
    lastList (log ++ new) s channel = lastList log s channel := by
  have hnil : new.filter (fun l => decide (l.session = s ∧ l.channel = channel)) = [] := by
    refine List.filter_eq_nil_iff.2 fun l hl => ?_
    rw [decide_eq_true_eq]
    exact fun hboth => h l hl hboth.2
  rw [lastList, List.filter_append, hnil, List.append_nil]
  rfl

theorem lastList_append_of_mem {l : ListSent} (hl : l ∈ new) (hs : l.session = s)
    (hchannel : l.channel = channel) : ∃ l' ∈ new, lastList (log ++ new) s channel = some l' := by
  have hmem : l ∈ new.filter fun l => decide (l.session = s ∧ l.channel = channel) :=
    List.mem_filter.2 ⟨hl, decide_eq_true ⟨hs, hchannel⟩⟩
  obtain ⟨l', hlast⟩ := Option.isSome_iff_exists.1
    (List.getLast?_isSome.2 (List.ne_nil_of_mem hmem))
  refine ⟨l', (List.mem_filter.1 (List.mem_of_getLast? hlast)).1, ?_⟩
  rw [lastList, List.filter_append, List.getLast?_append, hlast]
  rfl

end Last

/-- The handler, with the lists it has sent. -/
structure Posted where
  handler : CommandHandler
  log : List ListSent

namespace Posted

def start : Posted := ⟨.empty, []⟩

def step (p : Posted) (i : CommandInput) : Posted := ⟨p.handler.step i, p.log ++ i.lists p.handler⟩

/-- If the user is a member of a channel after the command, the command finds the session for
him. -/
def Finds (u : Str) (s : SessionId) (p : Posted) (i : CommandInput) : Prop :=
  (∃ e ∈ (p.handler.step i).channels.entries, u ∈ e.2.members) → i.services.findSession u = some s

instance (u : Str) (s : SessionId) (p : Posted) (i : CommandInput) : Decidable (Finds u s p i) :=
  inferInstanceAs (Decidable (_ → _))

/-- The last list of each channel of the user that was sent to the session was made when the
channel had its present members. -/
def Current (u : Str) (s : SessionId) (p : Posted) : Prop :=
  ∀ channel chan, p.handler.channels.lookup channel = some chan → u ∈ chan.members →
    ∃ l chan₀, lastList p.log s channel = some l ∧
      l.handler.channels.lookup channel = some chan₀ ∧ chan₀.members = chan.members

/-- The log grows by the lists among the actions of the command, each made right after it. -/
def LogsLists (p : Posted) (i : CommandInput) : Prop :=
  ∃ lists, (p.step i).log = p.log ++ lists ∧
    (∀ l ∈ lists, l.handler = p.handler.step i) ∧
    SendsLists i.services.codec lists (i.outcome p.handler).actions

theorem logsLists (p : Posted) (i : CommandInput) : p.LogsLists i :=
  ⟨i.lists p.handler, rfl, fun _ hl => (mem_lists hl).2.2, sendsLists_outcome _ _⟩

theorem current_step {u : Str} {s : SessionId} {p : Posted} {i : CommandInput}
    (h : Current u s p) (hfinds : Finds u s p i) : Current u s (p.step i) := by
  intro name chan' hchan' hu
  have hfound : i.services.findSession u = some s :=
    hfinds ⟨⟨name, chan'⟩, AList.mem_lookup_iff.1 hchan', hu⟩
  by_cases hlisted : (i.outcome p.handler).response.success = true ∧
      name ∈ p.handler.listedChannels (i.kind p.handler) i.cmd.args i.caller.userId
  · -- the list was sent right now
    have hmem := mem_lists_of_member hlisted.1 hlisted.2 hchan' hu hfound
    obtain ⟨l, hl, hlast⟩ := lastList_append_of_mem hmem rfl rfl
    exact ⟨l, chan', hlast, (mem_lists hl).2.2 ▸ hchan', rfl⟩
  · obtain ⟨chan, hchan, hmembers⟩ := members_of_unlisted hlisted hchan'
    obtain ⟨l, chan₀, hlast, hchan₀, hsame⟩ := h name chan hchan (by rw [hmembers]; exact hu)
    refine ⟨l, chan₀, ?_, hchan₀, hsame.trans hmembers⟩
    have hnone : ∀ l ∈ i.lists p.handler, l.channel ≠ name := by
      rintro l hl rfl
      obtain ⟨hsuccess, hmem, -⟩ := mem_lists hl
      exact hlisted ⟨hsuccess, hmem⟩
    exact (lastList_append_of_none hnone).trans hlast

/-- In every run in which a user is found under the same session after each command that he is in a
channel, the last user list of each of his channels that this session was sent lists exactly the
users who are in the channel now; and the lists that are sent are those of the log. -/
theorem members_see_lists (u : Str) (s : SessionId) (is : List CommandInput)
    (h : AllSteps step (Finds u s) start is) :
    AllStates step (Current u s) start is ∧ AllSteps step LogsLists start is := by
  have hcurrent : AllStates step (Current u s) start is := by
    refine .of_steps ?_ (fun p i => current_step) h
    intro channel chan hchan
    cases hchan
  exact ⟨hcurrent, hcurrent.toSteps fun p i _ => logsLists p i⟩

/-- A command of one of two users who have sessions. -/
def typedOnline (userId command : String) (args : List String) : CommandInput :=
  let findSession (u : Str) : Option SessionId :=
    if u = str "alice" then some 0 else if u = str "bob" then some 1 else none
  ⟨{ Services.idle with findSession := findSession }, .empty, ⟨str command, args.map str⟩,
    ⟨if userId = "alice" then 0 else 1, str userId⟩⟩

/-- Both join, one gives the other a mark, and that one leaves and comes back. -/
def sharedChannel : List CommandInput :=
  [typedOnline "alice" "join" ["#den"], typedOnline "bob" "join" ["#den"],
    typedOnline "alice" "mode" ["#den", "+v", "bob"], typedOnline "bob" "part" ["#den"],
    typedOnline "bob" "join" ["#den"], typedOnline "alice" "kick" ["#den", "bob"]]

theorem members_see_lists_sharedChannel :
    AllStates step (Current (str "alice") 0) start sharedChannel ∧
      AllSteps step LogsLists start sharedChannel :=
  members_see_lists (str "alice") 0 sharedChannel (by decide +kernel)

end Posted

end CommandHandler

end Ircord

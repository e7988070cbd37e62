import IrcordServer.Commands.Steps

/-!
# Who is in a channel

Two properties that every command which takes a member away has to restore: operators and voiced
users are members, and a channel has members.  `/part`, `/quit` and, for the first, `/kick` restore
them.  `/ban` forgets the operators and the voiced, and neither `/ban` nor `/kick` drops an emptied
channel; the runs on which this shows are characterised exactly.
-/

open Container Run

namespace Ircord

namespace CommandHandler

/-- The step is a `/kick` or `/ban` that takes the member `target` out of channel `name`. -/
structure TakesOut (kind : CommandKind) (h : CommandHandler) (i : CommandInput) (name : Str)
    (chan : ChannelState) (target : Str) : Prop where
  dispatched : i.kind h = some kind
  named : ∃ arg rest, i.cmd.args = name :: arg :: rest ∧ h.resolve arg = target
  channel : h.channels.lookup name = some chan
  operator : i.caller.userId ∈ chan.operators
  member : target ∈ chan.members

section TakesOut

variable {h : CommandHandler} {i : CommandInput} {name target : Str} {chan : ChannelState}

/-- A kicked member leaves all three sets; the channel stays, whoever is left. -/
theorem TakesOut.lookup_kick (ht : TakesOut .kick h i name chan target) :
    (h.step i).channels.lookup name = some (removeUser chan target) := by
  obtain ⟨arg, rest, hargs, htarget⟩ := ht.named
  obtain ⟨limits, records, e, -⟩ := CommandInput.outcome_of_kind_eq_some ht.dispatched
  have hchan : (h.withLimits limits records).channels.lookup name = some chan := ht.channel
  have hresolve : (h.withLimits limits records).resolve arg = target := htarget
  have hfound : ¬ ((h.withLimits limits records).nickToUserId.lookup arg = none ∧
      arg ∉ chan.members) := by
    rintro ⟨hnick, hmember⟩
    have : h.resolve arg = arg := by
      unfold resolve
      rw [show h.nickToUserId.lookup arg = none from hnick, Option.getD_none]
    rw [this] at htarget
    exact hmember (htarget ▸ ht.member)
  rw [step, e, hargs]
  show (cmdKick _ _ _ _ _).handler.channels.lookup name = _
  simp only [cmdKick, hchan, hresolve, ht.operator, ht.member, not_true, if_false, if_neg hfound]
  exact (lookup_setChannel _ _ _ _).trans (if_pos rfl)

/-- A banned member leaves the members only; the channel stays, whoever is left. -/
theorem TakesOut.lookup_ban (ht : TakesOut .ban h i name chan target) :
    (h.step i).channels.lookup name = some { chan with
      banned := chan.banned.insert target, members := chan.members.erase target } := by
  obtain ⟨arg, rest, hargs, htarget⟩ := ht.named
  obtain ⟨limits, records, e, -⟩ := CommandInput.outcome_of_kind_eq_some ht.dispatched
  have hchan : (h.withLimits limits records).channels.lookup name = some chan := ht.channel
  have hresolve : (h.withLimits limits records).resolve arg = target := htarget
  rw [step, e, hargs]
  show (cmdBan _ _ _ _ _).handler.channels.lookup name = _
  simp only [cmdBan, hchan, hresolve, ht.operator, ht.member, not_true, if_false, if_true]
  exact (lookup_setChannel _ _ _ _).trans (if_pos rfl)

end TakesOut

/-! ## Operators and voiced users -/

/-- The operators and the voiced users of every channel are members of it. -/
def OfficersAreMembers (h : CommandHandler) : Prop :=
  ∀ name chan, h.channels.lookup name = some chan →
    chan.operators ⊆ chan.members ∧ chan.voiced ⊆ chan.members

/-- The command is no `/ban` of a member that is an operator or voiced. -/
def BansNoOfficer (h : CommandHandler) (i : CommandInput) : Prop :=
  ∀ name chan target, TakesOut .ban h i name chan target →
    target ∉ chan.operators ∧ target ∉ chan.voiced

/-- The commands that are reserved to operators. -/
def operatorCommands : List CommandKind := [.kick, .ban, .invite, .set, .mode]

/-- An operator command about a channel the user is not in is refused and changes no channel. -/
def NonMemberRefused (h : CommandHandler) (i : CommandInput) : Prop :=
  ∀ kind ∈ operatorCommands, i.kind h = some kind → ∀ name rest, i.cmd.args = name :: rest →
    ∀ chan, h.channels.lookup name = some chan → i.caller.userId ∉ chan.members →
      (i.outcome h).response.success = false ∧ (h.step i).channels = h.channels

theorem officersAreMembers_empty : OfficersAreMembers empty := by
  intro name chan hchan
  cases hchan

/-- A step keeps officers members, unless it bans one of them. -/
theorem ChannelStep.officers {resolve : Str → Str} {u name : Str} {kind : Option CommandKind}
    {args : List Str} {slot slot' : Option ChannelState}
    (hstep : ChannelStep resolve u name kind args slot slot')
    (hslot : ∀ chan, slot = some chan →
      chan.operators ⊆ chan.members ∧ chan.voiced ⊆ chan.members)
    (hban : ∀ arg rest chan, kind = some .ban → args = name :: arg :: rest → slot = some chan →
      u ∈ chan.operators → resolve arg ∈ chan.members →
      resolve arg ∉ chan.operators ∧ resolve arg ∉ chan.voiced)
    {chan' : ChannelState} (hslot' : slot' = some chan') :
    chan'.operators ⊆ chan'.members ∧ chan'.voiced ⊆ chan'.members := by
  cases hstep with
  | same => exact hslot chan' hslot'
  | join arg rest slot named may =>
    cases hslot'
    have hold : (slot.getD (newChannel name)).operators ⊆ (slot.getD (newChannel name)).members ∧
        (slot.getD (newChannel name)).voiced ⊆ (slot.getD (newChannel name)).members := by
      cases slot with
      | none => exact ⟨UnorderedSet.empty_subset _, UnorderedSet.empty_subset _⟩
      | some chan => exact hslot chan rfl
    refine ⟨?_, UnorderedSet.subset_insert_of_subset hold.2⟩
    unfold addUser
    dsimp only
    split_ifs
    · exact UnorderedSet.insert_subset_insert hold.1
    · exact UnorderedSet.subset_insert_of_subset hold.1
  | part rest chan member =>
    rw [keepNonempty_eq_some hslot']
    obtain ⟨hop, hvoice⟩ := hslot chan rfl
    exact ⟨UnorderedSet.erase_subset_erase hop, UnorderedSet.erase_subset_erase hvoice⟩
  | quit args chan member =>
    rw [keepNonempty_eq_some hslot']
    obtain ⟨hop, hvoice⟩ := hslot chan rfl
    exact ⟨UnorderedSet.erase_subset_erase hop, UnorderedSet.erase_subset_erase hvoice⟩
  | kick target rest chan operator member =>
    cases hslot'
    obtain ⟨hop, hvoice⟩ := hslot chan rfl
    exact ⟨UnorderedSet.erase_subset_erase hop, UnorderedSet.erase_subset_erase hvoice⟩
  | ban target rest chan operator =>
    cases hslot'
    obtain ⟨hop, hvoice⟩ := hslot chan rfl
    have hnone : resolve target ∉ chan.operators ∧ resolve target ∉ chan.voiced := by
      by_cases hmember : resolve target ∈ chan.members
      · exact hban target rest chan rfl rfl rfl operator hmember
      · exact ⟨fun h => hmember (hop h), fun h => hmember (hvoice h)⟩
    exact ⟨(UnorderedSet.subset_erase_iff hop).2 hnone.1,
      (UnorderedSet.subset_erase_iff hvoice).2 hnone.2⟩
  | modeOperator mode target rest chan give operator member =>
    cases hslot'
    obtain ⟨hop, hvoice⟩ := hslot chan rfl
    refine ⟨?_, hvoice⟩
    dsimp only
    split_ifs
    · exact UnorderedSet.insert_subset member hop
    · exact UnorderedSet.erase_subset_of_subset hop
  | modeVoice mode target rest chan give operator member =>
    cases hslot'
    obtain ⟨hop, hvoice⟩ := hslot chan rfl
    refine ⟨hop, ?_⟩
    dsimp only
    split_ifs
    · exact UnorderedSet.insert_subset member hvoice
    · exact UnorderedSet.erase_subset_of_subset hvoice
  | topic | invite | set =>
    cases hslot'
    obtain ⟨hop, hvoice⟩ := hslot _ rfl
    exact ⟨hop, hvoice⟩

/-- One step: from officers that are members, exactly the bans of an officer break it. -/
theorem officersAreMembers_step_iff (h : CommandHandler) (i : CommandInput)
    (hinv : OfficersAreMembers h) : OfficersAreMembers (h.step i) ↔ BansNoOfficer h i := by
  constructor
  · intro hinv' name chan target ht
    obtain ⟨hop, hvoice⟩ := hinv name chan ht.channel
    obtain ⟨hop', hvoice'⟩ := hinv' name _ ht.lookup_ban
    exact ⟨(UnorderedSet.subset_erase_iff hop).1 hop',
      (UnorderedSet.subset_erase_iff hvoice).1 hvoice'⟩
  · intro hbans name chan' hchan'
    refine (channelStep_step h i name).officers (hinv name) ?_ hchan'
    intro arg rest chan hkind hargs hchan hop hmember
    exact hbans name chan _ ⟨hkind, ⟨arg, rest, hargs, rfl⟩, hchan, hop, hmember⟩

/-- An operator command is refused to whoever does not operate the channel. -/
theorem call_refused (v : Services) (h : CommandHandler) (db : Database) (rest : List Str)
    {caller : Caller} {kind : CommandKind} (hreserved : kind ∈ operatorCommands) {name : Str}
    {chan : ChannelState} (hchan : h.channels.lookup name = some chan)
    (hoperator : caller.userId ∉ chan.operators) :
    ∃ message command,
      call kind v h db (name :: rest) caller = .refuse h db message command := by
  simp only [operatorCommands, List.mem_cons, List.not_mem_nil, or_false] at hreserved
  rcases hreserved with rfl | rfl | rfl | rfl | rfl
  · show ∃ _ _, cmdKick _ _ _ _ _ = _
    rcases rest with _ | ⟨target, rest⟩
    · exact ⟨_, _, rfl⟩
    · simp only [cmdKick, hchan, hoperator, not_false_eq_true, if_true]
      exact ⟨_, _, rfl⟩
  · show ∃ _ _, cmdBan _ _ _ _ _ = _
    rcases rest with _ | ⟨target, rest⟩
    · exact ⟨_, _, rfl⟩
    · simp only [cmdBan, hchan, hoperator, not_false_eq_true, if_true]
      exact ⟨_, _, rfl⟩
  · show ∃ _ _, cmdInvite _ _ _ _ _ = _
    rcases rest with _ | ⟨target, rest⟩
    · exact ⟨_, _, rfl⟩
    · simp only [cmdInvite, hchan, hoperator, not_false_eq_true, if_true]
      exact ⟨_, _, rfl⟩
  · show ∃ _ _, cmdSet _ _ _ _ = _
    rcases rest with _ | ⟨option, _ | ⟨value, rest⟩⟩
    · exact ⟨_, _, rfl⟩
    · exact ⟨_, _, rfl⟩
    · simp only [cmdSet, hchan, hoperator, not_false_eq_true, if_true]
      exact ⟨_, _, rfl⟩
  · show ∃ _ _, cmdMode _ _ _ _ = _
    rcases rest with _ | ⟨mode, _ | ⟨target, rest⟩⟩
    · exact ⟨_, _, rfl⟩
    · exact ⟨_, _, rfl⟩
    · simp only [cmdMode, hchan, hoperator, not_false_eq_true, if_true]
      exact ⟨_, _, rfl⟩

/-- Where officers are members, the operator commands are closed to everybody else. -/
theorem nonMemberRefused (h : CommandHandler) (i : CommandInput) (hinv : OfficersAreMembers h) :
    NonMemberRefused h i := by
  intro kind hreserved hkind name rest hargs chan hchan hmember
  have hoperator : i.caller.userId ∉ chan.operators :=
    fun hop => hmember ((hinv name chan hchan).1 hop)
  obtain ⟨limits, records, e, -⟩ := CommandInput.outcome_of_kind_eq_some hkind
  obtain ⟨message, command, hrefuse⟩ :=
    call_refused i.services (h.withLimits limits records) i.db rest hreserved hchan hoperator
  rw [hargs, hrefuse] at e
  rw [step, e]
  exact ⟨rfl, rfl⟩

/-- In a run of commands from any users, operators and voiced users stay members, and whoever is no
member is refused the operator commands, exactly when no `/ban` hits an operator or a voiced
member. -/
theorem officers_are_members_iff (is : List CommandInput) :
    AllStates step OfficersAreMembers empty is ∧ AllSteps step NonMemberRefused empty is ↔
      AllSteps step BansNoOfficer empty is := by
  have hiff : AllStates step OfficersAreMembers empty is ↔ AllSteps step BansNoOfficer empty is :=
    allStates_iff_allSteps officersAreMembers_empty officersAreMembers_step_iff
  constructor
  · rintro ⟨hstates, -⟩
    exact hiff.1 hstates
  · intro hbans
    have hstates := hiff.2 hbans
    exact ⟨hstates, hstates.toSteps nonMemberRefused⟩

/-- A run in which an operator is banned and stays an operator. -/
def operatorBannedRun : List CommandInput :=
  [.typed "alice" "join" ["#a"], .typed "bob" "join" ["#a"],
    .typed "alice" "mode" ["#a", "+o", "bob"], .typed "alice" "ban" ["#a", "bob"]]

/-- After the run `bob` is no member and still an operator. -/
theorem not_officersAreMembers_operatorBannedRun :
    ¬ AllStates step OfficersAreMembers empty operatorBannedRun := by
  intro hall
  have hbob : ∃ chan ∈ (final step empty operatorBannedRun).channels.lookup (str "#a"),
      str "bob" ∈ chan.operators ∧ str "bob" ∉ chan.members := by decide
  obtain ⟨chan, hchan, hop, hmember⟩ := hbob
  exact hmember ((hall.final (str "#a") chan hchan).1 hop)

/-! ## Empty channels -/

/-- Every channel has a member. -/
def ChannelsInhabited (h : CommandHandler) : Prop :=
  ∀ name chan, h.channels.lookup name = some chan → ∃ u, u ∈ chan.members

/-- The command is no `/kick` or `/ban` of the only member of a channel. -/
def LeavesSomebody (h : CommandHandler) (i : CommandInput) : Prop :=
  ∀ kind ∈ [CommandKind.kick, .ban], ∀ name chan target, TakesOut kind h i name chan target →
    ∃ u ∈ chan.members, u ≠ target

theorem channelsInhabited_empty : ChannelsInhabited empty := by
  intro name chan hchan
  cases hchan

theorem keepNonempty_inhabited {chan chan' : ChannelState} (h : keepNonempty chan = some chan') :
    ∃ u, u ∈ chan'.members := by
  unfold keepNonempty at h
  split_ifs at h with hsize
  cases h
  by_contra hnone
  exact hsize (UnorderedSet.size_eq_zero_iff.2 fun a ha => hnone ⟨a, ha⟩)

/-- A step keeps channels inhabited, unless it kicks or bans the only member. -/
theorem ChannelStep.inhabited {resolve : Str → Str} {u name : Str} {kind : Option CommandKind}
    {args : List Str} {slot slot' : Option ChannelState}
    (hstep : ChannelStep resolve u name kind args slot slot')
    (hslot : ∀ chan, slot = some chan → ∃ v, v ∈ chan.members)
    (hkick : ∀ k ∈ [CommandKind.kick, .ban], ∀ arg rest chan, kind = some k →
      args = name :: arg :: rest → slot = some chan → u ∈ chan.operators →
      resolve arg ∈ chan.members → ∃ v ∈ chan.members, v ≠ resolve arg)
    {chan' : ChannelState} (hslot' : slot' = some chan') : ∃ v, v ∈ chan'.members := by
  cases hstep with
  | same => exact hslot chan' hslot'
  | join arg rest slot named may =>
    cases hslot'
    exact ⟨u, UnorderedSet.mem_insert.2 (Or.inl rfl)⟩
  | part rest chan member => exact keepNonempty_inhabited hslot'
  | quit args chan member => exact keepNonempty_inhabited hslot'
  | kick target rest chan operator member =>
    cases hslot'
    obtain ⟨v, hv, hne⟩ := hkick .kick (by decide) target rest chan rfl rfl rfl operator member
    exact ⟨v, mem_members_removeUser.2 ⟨hne, hv⟩⟩
  | ban target rest chan operator =>
    cases hslot'
    by_cases hmember : resolve target ∈ chan.members
    · obtain ⟨v, hv, hne⟩ := hkick .ban (by decide) target rest chan rfl rfl rfl operator hmember
      exact ⟨v, UnorderedSet.mem_erase.2 ⟨hne, hv⟩⟩
    · obtain ⟨v, hv⟩ := hslot chan rfl
      refine ⟨v, UnorderedSet.mem_erase.2 ⟨?_, hv⟩⟩
      rintro rfl
      exact hmember hv
  | topic | invite | set | modeOperator | modeVoice =>
    cases hslot'
    obtain ⟨v, hv⟩ := hslot _ rfl
    exact ⟨v, hv⟩

/-- One step: from inhabited channels, exactly a kick or ban of the only member empties one. -/
theorem channelsInhabited_step_iff (h : CommandHandler) (i : CommandInput)
    (hinv : ChannelsInhabited h) : ChannelsInhabited (h.step i) ↔ LeavesSomebody h i := by
  constructor
  · intro hinv' kind hkind name chan target ht
    simp only [List.mem_cons, List.not_mem_nil, or_false] at hkind
    rcases hkind with rfl | rfl
    · obtain ⟨v, hv⟩ := hinv' name _ ht.lookup_kick
      obtain ⟨hne, hv⟩ := mem_members_removeUser.1 hv
      exact ⟨v, hv, hne⟩
    · obtain ⟨v, hv⟩ := hinv' name _ ht.lookup_ban
      obtain ⟨hne, hv⟩ := UnorderedSet.mem_erase.1 hv
      exact ⟨v, hv, hne⟩
  · intro hleaves name chan' hchan'
    refine (channelStep_step h i name).inhabited (hinv name) ?_ hchan'
    intro kind hmem arg rest chan hkind hargs hchan hop hmember
    exact hleaves kind hmem name chan _ ⟨hkind, ⟨arg, rest, hargs, rfl⟩, hchan, hop, hmember⟩

/-- In a run of commands from any users, every channel keeps a member exactly when no `/kick` or
`/ban` takes out an only member. -/
theorem channels_inhabited_iff (is : List CommandInput) :
    AllStates step ChannelsInhabited empty is ↔ AllSteps step LeavesSomebody empty is :=
  allStates_iff_allSteps channelsInhabited_empty channelsInhabited_step_iff

/-- The only member of a channel kicks itself. -/
def selfKickRun : List CommandInput :=
  [.typed "alice" "join" ["#a"], .typed "alice" "kick" ["#a", "alice"]]

theorem not_channelsInhabited_selfKickRun :
    ¬ AllStates step ChannelsInhabited empty selfKickRun := by
  intro hall
  have hempty : ∃ chan ∈ (final step empty selfKickRun).channels.lookup (str "#a"),
      chan.members.elems = [] := by decide
  obtain ⟨chan, hchan, hnone⟩ := hempty
  obtain ⟨u, hu⟩ := hall.final (str "#a") chan hchan
  have : u ∈ chan.members.elems := hu
  rw [hnone] at this
  cases this

end CommandHandler

end Ircord

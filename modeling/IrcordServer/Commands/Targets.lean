import IrcordServer.Commands.Authority

/-!
# Whom a command names

A user list shows a user without a nickname under its id.  The commands that take a name look it up
among the nicknames first, so the id of a user means somebody else once it has become that
somebody's nickname.  `cmd_nick` only refuses the nicknames of others, not their ids.
-/

open Container Run

namespace Ircord

namespace CommandHandler

/-! ## What the commands do to the user they resolve -/

/-- The channel after `/mode` for the user, `none` for an unknown mode. -/
def modeChange (chan : ChannelState) (u mode : Str) : Option ChannelState :=
  if mode = str "+o" then some { chan with operators := chan.operators.insert u }
  else if mode = str "-o" then some { chan with operators := chan.operators.erase u }
  else if mode = str "+v" then some { chan with voiced := chan.voiced.insert u }
  else if mode = str "-v" then some { chan with voiced := chan.voiced.erase u }
  else none

/-- Each of the six commands, given the name `target`, acts on the user `u`: an operator kicks,
bans, invites and changes the mode of `u`, and anybody looks up and writes to `u`. -/
structure ActsOn (h : CommandHandler) (target u : Str) : Prop where
  kick : ∀ v db channel chan rest caller, h.channels.lookup channel = some chan →
    caller.userId ∈ chan.operators → u ∈ chan.members →
      (cmdKick v h db (channel :: target :: rest) caller).handler =
        h.setChannel channel (removeUser chan u)
  ban : ∀ v db channel chan rest caller, h.channels.lookup channel = some chan →
    caller.userId ∈ chan.operators → u ∈ chan.members →
      (cmdBan v h db (channel :: target :: rest) caller).handler =
        h.setChannel channel { chan with
          banned := chan.banned.insert u, members := chan.members.erase u }
  mode : ∀ db channel chan mode rest caller, h.channels.lookup channel = some chan →
    caller.userId ∈ chan.operators → u ∈ chan.members →
      (cmdMode h db (channel :: mode :: target :: rest) caller).handler =
        ((modeChange chan u mode).map (h.setChannel channel)).getD h
  invite : ∀ v db channel chan rest caller, h.channels.lookup channel = some chan →
    caller.userId ∈ chan.operators →
      (cmdInvite v h db (channel :: target :: rest) caller).handler =
        h.setChannel channel { chan with invites := chan.invites.insert u }
  whois : ∀ (v : Services) db rest,
    (cmdWhois v h db (target :: rest)).response.message =
      v.codec.userInfo.serialize
        { userId := u
          nickname := h.displayName u
          isOnline := (v.findSession u).isSome
          channels := (h.channels.entries.filter fun e => u ∈ e.2.members).map (·.1) }
  msg : ∀ (v : Services) db first rest,
    (cmdMsg v h db (target :: first :: rest)).response.success = (v.findSession u).isSome

section ActsOn

variable {h : CommandHandler} {target u : Str}

/-- A name that is nobody's nickname resolves to itself, so `/kick` finds it among the members. -/
theorem found_of_resolve {chan : ChannelState} (hresolve : h.resolve target = u)
    (hmember : u ∈ chan.members) :
    ¬ (h.nickToUserId.lookup target = none ∧ target ∉ chan.members) := by
  rintro ⟨hnick, hnot⟩
  unfold resolve at hresolve
  rw [hnick, Option.getD_none] at hresolve
  exact hnot (hresolve ▸ hmember)

theorem cmdKick_of_resolve (hresolve : h.resolve target = u) (v : Services) (db : Database)
    {channel : Str} {chan : ChannelState} (rest : List Str) {caller : Caller}
    (hchan : h.channels.lookup channel = some chan) (hop : caller.userId ∈ chan.operators)
    (hmember : u ∈ chan.members) :
    (cmdKick v h db (channel :: target :: rest) caller).handler =
      h.setChannel channel (removeUser chan u) := by
  simp only [cmdKick, hchan, hresolve, hop, hmember, not_true, if_false,
    if_neg (found_of_resolve hresolve hmember)]
  rfl

theorem cmdBan_of_resolve (hresolve : h.resolve target = u) (v : Services) (db : Database)
    {channel : Str} {chan : ChannelState} (rest : List Str) {caller : Caller}
    (hchan : h.channels.lookup channel = some chan) (hop : caller.userId ∈ chan.operators)
    (hmember : u ∈ chan.members) :
    (cmdBan v h db (channel :: target :: rest) caller).handler =
      h.setChannel channel { chan with
        banned := chan.banned.insert u, members := chan.members.erase u } := by
  simp only [cmdBan, hchan, hresolve, hop, hmember, not_true, if_false, if_true]
  rfl

theorem cmdMode_of_resolve (hresolve : h.resolve target = u) (db : Database)
    {channel : Str} {chan : ChannelState} (mode : Str) (rest : List Str) {caller : Caller}
    (hchan : h.channels.lookup channel = some chan) (hop : caller.userId ∈ chan.operators)
    (hmember : u ∈ chan.members) :
    (cmdMode h db (channel :: mode :: target :: rest) caller).handler =
      ((modeChange chan u mode).map (h.setChannel channel)).getD h := by
  simp only [cmdMode, hchan, hresolve, hop, hmember, not_true, if_false]
  unfold modeChange
  split_ifs <;> rfl

theorem actsOn_of_resolve (hresolve : h.resolve target = u) : ActsOn h target u where
  kick v db _ _ rest _ := cmdKick_of_resolve hresolve v db rest
  ban v db _ _ rest _ := cmdBan_of_resolve hresolve v db rest
  mode db _ _ mode rest _ := cmdMode_of_resolve hresolve db mode rest
  invite v db channel chan rest caller hchan hop := by
    simp only [cmdInvite, hchan, hresolve, hop, not_true, if_false]
    rfl
  whois v db rest := by
    simp only [cmdWhois, hresolve]
    rfl
  msg v db first rest := by
    simp only [cmdMsg, hresolve]
    cases v.findSession u <;> rfl

end ActsOn

/-! ## Users who never used `/nick` -/

/-- The user has typed a `/nick` command. -/
def UsedNick (is : List CommandInput) (u : Str) : Prop :=
  ∃ i ∈ is, i.caller.userId = u ∧ commandMap.lookup (lowercase i.cmd.command) = some .nick

instance (is : List CommandInput) (u : Str) : Decidable (UsedNick is u) :=
  inferInstanceAs (Decidable (∃ i ∈ is, _))

theorem UsedNick.snoc {is : List CommandInput} {u : Str} (hused : UsedNick is u)
    (i : CommandInput) : UsedNick (is ++ [i]) u := by
  obtain ⟨j, hj, hnick⟩ := hused
  exact ⟨j, List.mem_append_left _ hj, hnick⟩

theorem usedNick_snoc {is : List CommandInput} {i : CommandInput} {u : Str} :
    UsedNick (is ++ [i]) u ↔
      UsedNick is u ∨ (i.caller.userId = u ∧
        commandMap.lookup (lowercase i.cmd.command) = some .nick) := by
  constructor
  · rintro ⟨j, hj, hnick⟩
    rcases List.mem_append.1 hj with hj | hj
    · exact Or.inl ⟨j, hj, hnick⟩
    · exact Or.inr (List.mem_singleton.1 hj ▸ hnick)
  · rintro (hused | hnick)
    · exact hused.snoc i
    · exact ⟨i, List.mem_append_right _ (List.mem_singleton_self i), hnick⟩

/-- A command that is dispatched is found in the table. -/
theorem lookup_of_kind {h : CommandHandler} {i : CommandInput} {kind : CommandKind}
    (hkind : i.kind h = some kind) : commandMap.lookup (lowercase i.cmd.command) = some kind := by
  unfold CommandInput.kind dispatched at hkind
  split_ifs at hkind
  exact hkind

theorem not_nick_of_join {h : CommandHandler} {i : CommandInput} (hjoin : i.kind h = some .join) :
    commandMap.lookup (lowercase i.cmd.command) ≠ some .nick := by
  rw [lookup_of_kind hjoin]
  decide

theorem kind_of_newNick {h : CommandHandler} {i : CommandInput} {nick : Str}
    (hnew : newNick h i = some nick) : i.kind h = some .nick := by
  unfold newNick at hnew
  split_ifs at hnew with hkind
  exact hkind

theorem newNick_of_join {h : CommandHandler} {i : CommandInput} (hjoin : i.kind h = some .join) :
    newNick h i = none := by
  unfold newNick
  rw [hjoin]
  exact if_neg (by decide)

/-- Whoever is given a nickname has typed `/nick`. -/
theorem usedNick_of_newNick {h : CommandHandler} {i : CommandInput} {nick : Str}
    (hnew : newNick h i = some nick) (is : List CommandInput) :
    UsedNick (is ++ [i]) i.caller.userId :=
  usedNick_snoc.2 (Or.inr ⟨rfl, lookup_of_kind (kind_of_newNick hnew)⟩)

/-- The nickname maps speak of users who have typed `/nick` only. -/
def NicksOfUsers (s : List CommandInput × CommandHandler) : Prop :=
  ∀ u, ¬ UsedNick s.1 u →
    s.2.userIdToNick.lookup u = none ∧ ∀ nick, s.2.nickToUserId.lookup nick ≠ some u

theorem nicksOfUsers_empty : NicksOfUsers ([], empty) := by
  intro u _
  exact ⟨rfl, fun nick hnick => nomatch hnick⟩

theorem nicksOfUsers_step (s : List CommandInput × CommandHandler) (i : CommandInput)
    (hinv : NicksOfUsers s) : NicksOfUsers (recording step s i) := by
  intro u hu
  obtain ⟨hnone, hne⟩ := hinv u fun hused => hu (hused.snoc i)
  have hsame := sameNicknames_step s.2 i
  cases hnew : newNick s.2 i with
  | none =>
    rw [hnew] at hsame
    rw [recording, hsame.1, hsame.2]
    exact ⟨hnone, hne⟩
  | some nick =>
    have hcaller : u ≠ i.caller.userId := by
      rintro rfl
      exact hu (usedNick_of_newNick hnew s.1)
    rw [hnew] at hsame
    rw [recording, hsame.1, hsame.2]
    constructor
    · exact (UnorderedMap.lookup_insert_ite _ _ _ _).trans ((if_neg hcaller).trans hnone)
    · intro nick' hnick'
      simp only [rename, UnorderedMap.lookup_insert_ite, UnorderedMap.lookup_erase_ite] at hnick'
      split_ifs at hnick'
      · exact hcaller (Option.some.inj hnick').symm
      · exact hne nick' hnick'

/-! ## New members -/

/-- The command makes its user a member of a channel. -/
def AdmitsCaller (h : CommandHandler) (i : CommandInput) : Prop :=
  i.kind h = some .join ∧ JoinAdmitted i.services.now h i.caller.userId i.cmd.args

theorem mem_members_addUser {chan : ChannelState} {u v : Str} :
    v ∈ (addUser chan u).members ↔ v = u ∨ v ∈ chan.members :=
  UnorderedSet.mem_insert

theorem joinAdmitted_of_limiter_eq {h : CommandHandler} {now : Time} {u : Str} {args : List Str}
    {limits : UnorderedMap Str UserRateLimits} {records : UnorderedMap Str AbuseRecord}
    (hlimiter : ((h.withLimits limits records).rateLimits now u).joinLimiter =
      (h.rateLimits now u).joinLimiter) :
    JoinAdmitted now (h.withLimits limits records) u args ↔ JoinAdmitted now h u args := by
  cases args with
  | nil => exact Iff.rfl
  | cons arg rest =>
    unfold JoinAdmitted
    rw [hlimiter]
    rfl

/-- A channel is created by `/join` only. -/
theorem ChannelStep.created {resolve : Str → Str} {u name : Str} {kind : Option CommandKind}
    {args : List Str} {slot slot' : Option ChannelState} {chan' : ChannelState}
    (hstep : ChannelStep resolve u name kind args slot slot') (hslot : slot = none)
    (hslot' : slot' = some chan') : kind = some .join := by
  cases hstep with
  | same => cases hslot.symm.trans hslot'
  | join => rfl
  | part | quit | topic | kick | ban | invite | set | modeOperator | modeVoice => cases hslot

theorem ChannelStep.unchanged {resolve : Str → Str} {u name : Str} {kind : Option CommandKind}
    {args : List Str} {slot slot' : Option ChannelState}
    (hstep : ChannelStep resolve u name kind args slot slot') (hnick : kind = some .nick) :
    slot' = slot := by
  cases hstep with
  | same => rfl
  | join | part | quit | topic | kick | ban | invite | set | modeOperator | modeVoice =>
    cases hnick

/-- A `/join` is refused and changes nothing about the channels, or succeeds and puts its user into
the one it names. -/
theorem lookup_step_join {h : CommandHandler} {i : CommandInput} (hjoin : i.kind h = some .join) :
    (¬ AdmitsCaller h i ∧ (i.outcome h).response.success = false ∧
      (h.step i).channels = h.channels) ∨
      (AdmitsCaller h i ∧ (i.outcome h).response.success = true ∧
        ∃ arg rest, i.cmd.args = arg :: rest ∧ ∀ name, (h.step i).channels.lookup name =
          if name = sanitizeChannelName arg then
            some (addUser ((h.channels.lookup name).getD (newChannel name)) i.caller.userId)
          else h.channels.lookup name) := by
  obtain ⟨limits, records, e, hlimiter⟩ := CommandInput.outcome_of_kind_eq_some hjoin
  have houtcome : i.outcome h =
      cmdJoin i.services (h.withLimits limits records) i.db i.cmd.args i.caller := e
  have hadmits := @joinAdmitted_of_limiter_eq h _ _ i.cmd.args _ _ hlimiter
  unfold step
  rcases cmdJoin_cases i.services (h.withLimits limits records) i.db i.cmd.args i.caller with
    ⟨hnot, _, _, _, hrefuse⟩ | ⟨hadm, arg, rest, channels, _, _, _, hargs, hlookup, haccept⟩
  · refine Or.inl ⟨fun hadm => hnot (hadmits.2 hadm.2), ?_, ?_⟩
    all_goals
      rw [houtcome, hrefuse]
      rfl
  · refine Or.inr ⟨⟨hjoin, hadmits.1 hadm⟩, ?_, arg, rest, hargs, ?_⟩
    all_goals rw [houtcome, haccept]
    · rfl
    · exact hlookup

/-- A command that admits its user makes it a member. -/
theorem isMember_of_admitsCaller {h : CommandHandler} {i : CommandInput}
    (hadm : AdmitsCaller h i) : ∃ name, IsMember (h.step i) name i.caller.userId := by
  rcases lookup_step_join hadm.1 with ⟨hnot, -⟩ | ⟨-, -, arg, rest, -, hlookup⟩
  · exact absurd hadm hnot
  · exact ⟨_, _, (hlookup _).trans (if_pos rfl), mem_members_addUser.2 (Or.inl rfl)⟩

/-- A member after a command was one before, or is the user whom the command admits. -/
theorem isMember_step {h : CommandHandler} {i : CommandInput} {name u : Str}
    (hmember : IsMember (h.step i) name u) :
    IsMember h name u ∨ (AdmitsCaller h i ∧ i.caller.userId = u) := by
  obtain ⟨chan', hchan', hu⟩ := hmember
  by_cases hjoin : i.kind h = some .join
  · rcases lookup_step_join hjoin with ⟨-, -, hsame⟩ | ⟨hadm, -, arg, rest, -, hlookup⟩
    · exact Or.inl ⟨chan', hsame ▸ hchan', hu⟩
    · rw [hlookup] at hchan'
      split_ifs at hchan'
      · cases hchan'
        rcases mem_members_addUser.1 hu with hcaller | hold
        · exact Or.inr ⟨hadm, hcaller.symm⟩
        · cases hlook : h.channels.lookup name with
          | none =>
            rw [hlook] at hold
            exact absurd hold (UnorderedSet.not_mem_empty u)
          | some chan =>
            rw [hlook] at hold
            exact Or.inl ⟨chan, hlook, hold⟩
      · exact Or.inl ⟨chan', hchan', hu⟩
  · have hstep := channelStep_step h i name
    cases hlook : h.channels.lookup name with
    | none => exact absurd (hstep.created hlook hchan') hjoin
    | some chan =>
      by_cases hold : u ∈ chan.members
      · exact Or.inl ⟨chan, hlook, hold⟩
      · exact absurd (hstep.new_member hlook hchan' hold hu).1 hjoin

/-- `/nick` leaves the members alone. -/
theorem isMember_step_nick {h : CommandHandler} {i : CommandInput} {name u : Str}
    (hnick : i.kind h = some .nick) (hmember : IsMember h name u) :
    IsMember (h.step i) name u := by
  obtain ⟨chan, hchan, hu⟩ := hmember
  refine ⟨chan, ?_, hu⟩
  rw [← hchan]
  exact (channelStep_step h i name).unchanged hnick

/-! ## Displayed names -/

/-- Every member who never used `/nick` is shown under its id, and each command that takes this
name acts on that member. -/
def ShownNamesResolve (s : List CommandInput × CommandHandler) : Prop :=
  ∀ name u, IsMember s.2 name u → ¬ UsedNick s.1 u →
    s.2.displayName u = u ∧ s.2.resolve (s.2.displayName u) = u ∧
      ActsOn s.2 (s.2.displayName u) u

/-- The command neither takes as a nickname the id of another member who never used `/nick`, nor
lets in a user who never used `/nick` and whose id is a nickname. -/
def NoNamesake (s : List CommandInput × CommandHandler) (i : CommandInput) : Prop :=
  (∀ nick, newNick s.2 i = some nick → nick ≠ i.caller.userId →
    ∀ name, IsMember s.2 name nick → UsedNick s.1 nick) ∧
  (AdmitsCaller s.2 i → ¬ UsedNick s.1 i.caller.userId →
    s.2.nickToUserId.lookup i.caller.userId = none)

/-- The id of a member who never used `/nick` is nobody's nickname. -/
def IdsFree (s : List CommandInput × CommandHandler) : Prop :=
  ∀ name u, IsMember s.2 name u → ¬ UsedNick s.1 u → s.2.nickToUserId.lookup u = none

theorem shownNamesResolve_iff {s : List CommandInput × CommandHandler} (hinv : NicksOfUsers s) :
    ShownNamesResolve s ↔ IdsFree s := by
  constructor
  · intro hshown name u hmember hu
    obtain ⟨hname, hresolve, -⟩ := hshown name u hmember hu
    rw [hname] at hresolve
    cases hlook : s.2.nickToUserId.lookup u with
    | none => rfl
    | some owner =>
      unfold resolve at hresolve
      rw [hlook, Option.getD_some] at hresolve
      exact absurd (hresolve ▸ hlook) ((hinv u hu).2 u)
  · intro hfree name u hmember hu
    have hname : s.2.displayName u = u := by
      unfold displayName
      rw [(hinv u hu).1, Option.getD_none]
    have hresolve : s.2.resolve u = u := by
      unfold resolve
      rw [hfree name u hmember hu, Option.getD_none]
    rw [hname]
    exact ⟨rfl, hresolve, actsOn_of_resolve hresolve⟩

/-- One step: exactly a nickname taken from a member, or a member whose id is taken, makes an id
ambiguous. -/
theorem idsFree_step_iff (s : List CommandInput × CommandHandler) (i : CommandInput)
    (hfree : IdsFree s) : IdsFree (recording step s i) ↔ NoNamesake s i := by
  obtain ⟨is, h⟩ := s
  have hnames := sameNicknames_step h i
  constructor
  · intro hfree'
    refine ⟨fun nick hnew hne name hmember => ?_, fun hadm hu => ?_⟩
    · by_contra hu
      have hkind := kind_of_newNick hnew
      have hu' : ¬ UsedNick (is ++ [i]) nick := fun hused =>
        (usedNick_snoc.1 hused).elim hu fun hi => hne hi.1.symm
      have hnone := hfree' name nick (isMember_step_nick hkind hmember) hu'
      rw [hnew] at hnames
      rw [recording, hnames.1] at hnone
      simp only [rename, AList.lookup_insert, reduceCtorEq] at hnone
    · obtain ⟨name, hmember⟩ := isMember_of_admitsCaller hadm
      have hu' : ¬ UsedNick (is ++ [i]) i.caller.userId := fun hused =>
        (usedNick_snoc.1 hused).elim hu fun hi => not_nick_of_join hadm.1 hi.2
      have hnone := hfree' name _ hmember hu'
      rw [newNick_of_join hadm.1] at hnames
      rwa [recording, hnames.1] at hnone
  · rintro ⟨htaken, hadmitted⟩ name u hmember hu
    have hold : ¬ UsedNick is u := fun hused => hu (hused.snoc i)
    show (h.step i).nickToUserId.lookup u = none
    rcases isMember_step hmember with hmember | ⟨hadm, rfl⟩
    · have hnone := hfree name u hmember hold
      cases hnew : newNick h i with
      | none =>
        rw [hnew] at hnames
        rwa [hnames.1]
      | some nick =>
        have hcaller : u ≠ i.caller.userId := by
          rintro rfl
          exact hu (usedNick_of_newNick hnew is)
        have hne : u ≠ nick := by
          rintro rfl
          exact hold (htaken u hnew hcaller name hmember)
        rw [hnew] at hnames
        rw [hnames.1]
        simp only [rename, UnorderedMap.lookup_insert_ite, UnorderedMap.lookup_erase_ite]
        rw [if_neg hne, hnone, ite_self]
    · rw [newNick_of_join hadm.1] at hnames
      rw [hnames.1]
      exact hadmitted hadm hold

theorem idsFree_empty : IdsFree ([], empty) := by
  rintro name u ⟨chan, hchan, -⟩
  cases hchan

/-- In a run of commands from any users, the members who never used `/nick` are always named by
what the user list shows for them exactly when no command takes or lets in a namesake. -/
theorem shown_names_resolve_iff (is : List CommandInput) :
    AllStates (recording step) ShownNamesResolve ([], empty) is ↔
      AllSteps (recording step) NoNamesake ([], empty) is := by
  have hnicks : AllStates (recording step) NicksOfUsers ([], empty) is :=
    .of_invariant nicksOfUsers_empty nicksOfUsers_step is
  rw [← allStates_iff_allSteps idsFree_empty idsFree_step_iff]
  constructor
  · intro hall
    exact (hall.and hnicks).mono fun s hs => (shownNamesResolve_iff hs.2).1 hs.1
  · intro hall
    exact (hall.and hnicks).mono fun s hs => (shownNamesResolve_iff hs.2).2 hs.1

/-- `op` operates `#a`, where `alice` and `bob` join; then `bob` takes the id of `alice` as its
nickname. -/
def namesakeRun : List CommandInput :=
  [.typed "op" "join" ["#a"], .typed "alice" "join" ["#a"], .typed "bob" "join" ["#a"],
    .typed "bob" "nick" ["alice"]]

/-- After the run the name shown for `alice`, who never used `/nick`, names `bob`. -/
theorem not_shownNamesResolve_namesakeRun :
    ¬ AllStates (recording step) ShownNamesResolve ([], empty) namesakeRun := by
  intro hall
  have hlast := allStates_recording_iff.1 hall namesakeRun [] (List.append_nil _).symm
  have hmember : ∃ chan, (final step empty namesakeRun).channels.lookup (str "#a") = some chan ∧
      str "alice" ∈ chan.members := by decide +kernel
  have hunused : ¬ UsedNick namesakeRun (str "alice") := by decide +kernel
  have hresolve : (final step empty namesakeRun).resolve
      ((final step empty namesakeRun).displayName (str "alice")) = str "bob" := by decide +kernel
  have hself := (hlast (str "#a") (str "alice") hmember hunused).2.1
  exact absurd (hresolve.symm.trans hself) (by decide)

end CommandHandler

end Ircord

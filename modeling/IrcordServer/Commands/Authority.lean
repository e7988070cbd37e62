import IrcordServer.Commands.Steps

/-!
# Authority over channels

What a user can do to a channel it does not operate (`outsider_change`), who can become a member
(`bans_hold`), and that a refused command leaves no trace (`refused_changes_nothing`).
-/

open Container Run

namespace Ircord

namespace CommandHandler

/-! ## Outsiders -/

/-- What user `u` may do to the channel `name` without operating it: nothing, create it, enter it
(as its operator when alone in it), leave it, or set a topic that is open to members. -/
inductive OutsiderChange (u name : Str) :
    Option CommandKind → Option ChannelState → Option ChannelState → Prop
  | same (kind : Option CommandKind) (slot : Option ChannelState) :
      OutsiderChange u name kind slot slot
  | created : OutsiderChange u name (some .join) none
      (some { newChannel name with
        members := UnorderedSet.insert u ∅, operators := UnorderedSet.insert u ∅ })
  | joined (chan : ChannelState) :
      OutsiderChange u name (some .join) (some chan)
        (some { chan with members := chan.members.insert u })
  | joinedAlone (chan : ChannelState) (alone : ∀ m ∈ chan.members.insert u, m = u) :
      OutsiderChange u name (some .join) (some chan)
        (some { chan with
          members := chan.members.insert u, operators := chan.operators.insert u })
  | left (kind : CommandKind) (leaving : kind = .part ∨ kind = .quit) (chan : ChannelState) :
      OutsiderChange u name (some kind) (some chan) (keepNonempty (removeUser chan u))
  | topic (chan : ChannelState) (topic : Str) (member : u ∈ chan.members)
      (unrestricted : chan.topicRestricted = false) :
      OutsiderChange u name (some .topic) (some chan) (some { chan with topic := topic })

/-- Entering a channel is a change an outsider may make. -/
theorem outsiderChange_addUser (u name : Str) (slot : Option ChannelState) :
    OutsiderChange u name (some .join) slot (some (addUser (slot.getD (newChannel name)) u)) := by
  cases slot with
  | none => exact .created
  | some chan =>
    show OutsiderChange _ _ _ _ (some (addUser chan u))
    unfold addUser
    split_ifs with hone
    · refine .joinedAlone chan fun m hm => ?_
      have hself : u ∈ chan.members.insert u := UnorderedSet.mem_insert.2 (Or.inl rfl)
      exact (UnorderedSet.size_eq_one_iff_of_mem hself).1 hone m hm
    · exact .joined chan

/-- A user that does not operate a channel can only enter it, leave it, or set an open topic. -/
theorem outsider_change (h : CommandHandler) (i : CommandInput) (name : Str)
    (outsider : ∀ chan, h.channels.lookup name = some chan → i.caller.userId ∉ chan.operators) :
    OutsiderChange i.caller.userId name (i.kind h) (h.channels.lookup name)
      ((h.step i).channels.lookup name) := by
  have hstep := channelStep_step h i name
  generalize h.channels.lookup name = slot at hstep outsider ⊢
  generalize (h.step i).channels.lookup name = slot' at hstep ⊢
  generalize i.kind h = kind at hstep ⊢
  generalize i.cmd.args = args at hstep
  cases hstep with
  | same => exact .same _ _
  | join arg rest slot named may => exact outsiderChange_addUser _ _ _
  | part rest chan member => exact .left .part (Or.inl rfl) chan
  | quit args chan member => exact .left .quit (Or.inr rfl) chan
  | topic first rest chan member may =>
    refine .topic chan _ member ?_
    exact Bool.eq_false_iff.2 fun e => outsider chan rfl (may e)
  | kick target rest chan operator => exact absurd operator (outsider chan rfl)
  | ban target rest chan operator => exact absurd operator (outsider chan rfl)
  | invite target rest chan operator => exact absurd operator (outsider chan rfl)
  | set option value rest chan _ _ _ operator => exact absurd operator (outsider chan rfl)
  | modeOperator mode target rest chan give operator => exact absurd operator (outsider chan rfl)
  | modeVoice mode target rest chan give operator => exact absurd operator (outsider chan rfl)

/-- A kick by somebody who operates nothing. -/
theorem outsider_change_kick :
    OutsiderChange (str "eve") (str "#a")
      ((CommandInput.typed "eve" "kick" ["#a", "alice"]).kind
        (empty.step (.typed "alice" "join" ["#a"])))
      ((empty.step (.typed "alice" "join" ["#a"])).channels.lookup (str "#a"))
      (((empty.step (.typed "alice" "join" ["#a"])).step
        (.typed "eve" "kick" ["#a", "alice"])).channels.lookup (str "#a")) :=
  have houtsider : ∀ chan ∈ (empty.step (.typed "alice" "join" ["#a"])).channels.lookup (str "#a"),
      str "eve" ∉ chan.operators := by decide
  outsider_change _ (.typed "eve" "kick" ["#a", "alice"]) (str "#a") houtsider

/-! ## Bans -/

def IsMember (h : CommandHandler) (name u : Str) : Prop :=
  ∃ chan, h.channels.lookup name = some chan ∧ u ∈ chan.members

def IsBanned (h : CommandHandler) (name u : Str) : Prop :=
  ∃ chan, h.channels.lookup name = some chan ∧ u ∈ chan.banned

/-- The members of a channel and those banned from it are disjoint. -/
def NoMemberBanned (h : CommandHandler) : Prop :=
  ∀ name chan, h.channels.lookup name = some chan → ∀ u ∈ chan.members, u ∉ chan.banned

/-- Whoever the command makes a member of an existing channel joined it, unbanned, and invited or
operating where that is needed. -/
def AdmitsByJoin (h : CommandHandler) (i : CommandInput) : Prop :=
  ∀ name v chan, h.channels.lookup name = some chan → v ∉ chan.members →
    IsMember (h.step i) name v →
      i.kind h = some .join ∧ i.caller.userId = v ∧ v ∉ chan.banned ∧
        (chan.inviteOnly = true → v ∈ chan.invites ∨ v ∈ chan.operators)

theorem noMemberBanned_empty : NoMemberBanned empty := by
  intro name chan hchan
  cases hchan

/-- A new member of an existing channel has joined it. -/
theorem ChannelStep.new_member {resolve : Str → Str} {u name v : Str} {kind : Option CommandKind}
    {args : List Str} {slot slot' : Option ChannelState} {chan chan' : ChannelState}
    (hstep : ChannelStep resolve u name kind args slot slot') (hslot : slot = some chan)
    (hslot' : slot' = some chan') (hold : v ∉ chan.members) (hnew : v ∈ chan'.members) :
    kind = some .join ∧ u = v ∧ MayJoin chan v := by
  cases hstep with
  | same =>
    cases hslot.symm.trans hslot'
    exact absurd hnew hold
  | join arg rest slot named may =>
    subst hslot
    cases hslot'
    rcases UnorderedSet.mem_insert.1 hnew with rfl | hmem
    · exact ⟨rfl, rfl, may⟩
    · exact absurd hmem hold
  | part rest _ member =>
    cases hslot
    rw [keepNonempty_eq_some hslot'] at hnew
    exact absurd (mem_members_removeUser.1 hnew).2 hold
  | quit args _ member =>
    cases hslot
    rw [keepNonempty_eq_some hslot'] at hnew
    exact absurd (mem_members_removeUser.1 hnew).2 hold
  | kick target rest _ operator member =>
    cases hslot
    cases hslot'
    exact absurd (mem_members_removeUser.1 hnew).2 hold
  | ban target rest _ operator =>
    cases hslot
    cases hslot'
    exact absurd (UnorderedSet.mem_erase.1 hnew).2 hold
  | topic | invite | set | modeOperator | modeVoice =>
    cases hslot
    cases hslot'
    exact absurd hnew hold

/-- A ban stays for as long as the channel does. -/
theorem ChannelStep.banned_subset {resolve : Str → Str} {u name : Str} {kind : Option CommandKind}
    {args : List Str} {slot slot' : Option ChannelState} {chan chan' : ChannelState}
    (hstep : ChannelStep resolve u name kind args slot slot') (hslot : slot = some chan)
    (hslot' : slot' = some chan') : chan.banned ⊆ chan'.banned := by
  intro v hv
  cases hstep with
  | same =>
    cases hslot.symm.trans hslot'
    exact hv
  | join arg rest slot named may =>
    subst hslot
    cases hslot'
    exact hv
  | part rest _ member =>
    cases hslot
    rw [keepNonempty_eq_some hslot']
    exact hv
  | quit args _ member =>
    cases hslot
    rw [keepNonempty_eq_some hslot']
    exact hv
  | ban target rest _ operator =>
    cases hslot
    cases hslot'
    exact UnorderedSet.mem_insert.2 (Or.inr hv)
  | kick | topic | invite | set | modeOperator | modeVoice =>
    cases hslot
    cases hslot'
    exact hv

/-- A step keeps the members and the banned of a channel apart. -/
theorem ChannelStep.disjoint {resolve : Str → Str} {u name : Str} {kind : Option CommandKind}
    {args : List Str} {slot slot' : Option ChannelState}
    (hstep : ChannelStep resolve u name kind args slot slot')
    (hslot : ∀ chan, slot = some chan → ∀ v ∈ chan.members, v ∉ chan.banned) {chan' : ChannelState}
    (hslot' : slot' = some chan') : ∀ v ∈ chan'.members, v ∉ chan'.banned := by
  intro v hv
  cases hstep with
  | same => exact hslot chan' hslot' v hv
  | join arg rest slot named may =>
    cases hslot'
    rcases UnorderedSet.mem_insert.1 hv with rfl | hmem
    · exact may.1
    · cases slot with
      | none => exact UnorderedSet.not_mem_empty v
      | some chan => exact hslot chan rfl v hmem
  | part rest chan member =>
    rw [keepNonempty_eq_some hslot'] at hv ⊢
    exact hslot chan rfl v (mem_members_removeUser.1 hv).2
  | quit args chan member =>
    rw [keepNonempty_eq_some hslot'] at hv ⊢
    exact hslot chan rfl v (mem_members_removeUser.1 hv).2
  | kick target rest chan operator member =>
    cases hslot'
    exact hslot chan rfl v (mem_members_removeUser.1 hv).2
  | ban target rest chan operator =>
    cases hslot'
    obtain ⟨hne, hmem⟩ := UnorderedSet.mem_erase.1 hv
    intro hban
    rcases UnorderedSet.mem_insert.1 hban with e | hban
    · exact hne e
    · exact hslot chan rfl v hmem hban
  | topic | invite | set | modeOperator | modeVoice =>
    cases hslot'
    exact hslot _ rfl v hv

theorem noMemberBanned_step (h : CommandHandler) (i : CommandInput) (hinv : NoMemberBanned h) :
    NoMemberBanned (h.step i) :=
  fun name _ hchan' => (channelStep_step h i name).disjoint (hinv name) hchan'

theorem admitsByJoin (h : CommandHandler) (i : CommandInput) : AdmitsByJoin h i := by
  rintro name v chan hchan hold ⟨chan', hchan', hnew⟩
  obtain ⟨hkind, huser, hban, hinvite⟩ :=
    (channelStep_step h i name).new_member hchan hchan' hold hnew
  exact ⟨hkind, huser, hban, hinvite⟩

theorem isBanned_step {h : CommandHandler} {i : CommandInput} {name v : Str}
    (hban : IsBanned h name v) (hexists : name ∈ (h.step i).channels) :
    IsBanned (h.step i) name v := by
  obtain ⟨chan, hchan, hv⟩ := hban
  obtain ⟨chan', hchan'⟩ := UnorderedMap.mem_iff_lookup.1 hexists
  exact ⟨chan', hchan', (channelStep_step h i name).banned_subset hchan hchan' hv⟩

/-- While the channel exists, a ban holds. -/
theorem isBanned_final {h : CommandHandler} {is : List CommandInput} {name v : Str}
    (hban : IsBanned h name v) (hexists : AllStates step (fun h => name ∈ h.channels) h is) :
    IsBanned (final step h is) name v := by
  induction is generalizing h with
  | nil => exact hban
  | cons i is ih => exact ih (isBanned_step hban hexists.2.head) hexists.2

/-- In every run members and banned stay disjoint, members are gained by joining only, and whoever
is banned is no member until the channel is destroyed. -/
theorem bans_hold (is : List CommandInput) :
    AllStates step NoMemberBanned empty is ∧ AllSteps step AdmitsByJoin empty is ∧
      ∀ before after name v, is = before ++ after →
        IsBanned (final step empty before) name v →
        AllStates step (fun h => name ∈ h.channels) (final step empty before) after →
        ¬ IsMember (final step empty is) name v := by
  have hinv : AllStates step NoMemberBanned empty is :=
    .of_invariant noMemberBanned_empty noMemberBanned_step is
  refine ⟨hinv, hinv.toSteps fun h i _ => admitsByJoin h i, ?_⟩
  rintro before after name v rfl hban hexists ⟨chan, hchan, hmember⟩
  rw [final_append] at hchan
  obtain ⟨chan', hchan', hbanned⟩ := isBanned_final hban hexists
  cases hchan.symm.trans hchan'
  have hlast := hinv.final
  rw [final_append] at hlast
  exact hlast name chan hchan v hmember hbanned

/-! ## Refusals -/

/-- A command that is answered with `success = false` leaves channels, nicknames and tables as they
were. -/
theorem refused_changes_nothing (h : CommandHandler) (i : CommandInput)
    (refused : (i.outcome h).response.success = false) :
    (h.step i).channels = h.channels ∧ (h.step i).nickToUserId = h.nickToUserId ∧
      (h.step i).userIdToNick = h.userIdToNick ∧ (i.outcome h).db = i.db := by
  obtain ⟨⟨limits, records, e⟩, hdb⟩ := step_of_refused h i refused
  rw [e]
  exact ⟨rfl, rfl, rfl, hdb⟩

/-- A ban by somebody who operates nothing. -/
theorem refused_changes_nothing_ban :
    let h := empty.step (.typed "alice" "join" ["#a"])
    let i := CommandInput.typed "eve" "ban" ["#a", "alice"]
    (h.step i).channels = h.channels ∧ (h.step i).nickToUserId = h.nickToUserId ∧
      (h.step i).userIdToNick = h.userIdToNick ∧ (i.outcome h).db = i.db :=
  refused_changes_nothing _ _ (by decide)

end CommandHandler

end Ircord

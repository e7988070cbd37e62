import IrcordServer.ChannelNames
import IrcordServer.Commands.Targets

/-!
# The names channels are registered under

`cmd_join` registers a channel under the sanitized form of its argument, and only if that form is
valid; so every key is `#` with valid channel characters behind it, and is its own sanitized form.
The other commands look their channel argument up as it was typed.
-/

open Container Run

namespace Ircord

namespace CommandHandler

/-! ## The keys -/

/-- Every channel is registered under `#` and one or more valid channel characters. -/
def KeysValid (h : CommandHandler) : Prop :=
  ∀ name chan, h.channels.lookup name = some chan → isChannelKey name = true

theorem keysValid_empty : KeysValid empty := by
  intro name chan hchan
  cases hchan

/-- Only a valid channel name gets its user admitted. -/
theorem isChannelKey_of_admitsCaller {h : CommandHandler} {i : CommandInput} {arg : Str}
    {rest : List Str} (hadm : AdmitsCaller h i) (hargs : i.cmd.args = arg :: rest) :
    isChannelKey (sanitizeChannelName arg) = true := by
  have hjoin := hadm.2
  rw [hargs] at hjoin
  exact isChannelKey_sanitizeChannelName hjoin.1

theorem keysValid_step (h : CommandHandler) (i : CommandInput) (hinv : KeysValid h) :
    KeysValid (h.step i) := by
  intro name chan' hchan'
  cases hlook : h.channels.lookup name with
  | some chan => exact hinv name chan hlook
  | none =>
    have hjoin := (channelStep_step h i name).created hlook hchan'
    rcases lookup_step_join hjoin with ⟨-, -, hsame⟩ | ⟨hadm, -, arg, rest, hargs, hlookup⟩
    · rw [hsame, hlook] at hchan'
      cases hchan'
    · rw [hlookup, hlook] at hchan'
      split_ifs at hchan' with hname
      rw [hname]
      exact isChannelKey_of_admitsCaller hadm hargs

theorem allStates_keysValid (is : List CommandInput) : AllStates step KeysValid empty is :=
  .of_invariant keysValid_empty keysValid_step is

/-- A successful `/join` with the name of a channel puts its user into that channel, and leaves the
other channels alone. -/
def JoinsByName (h : CommandHandler) (i : CommandInput) : Prop :=
  ∀ name rest chan, i.kind h = some .join → i.cmd.args = name :: rest →
    h.channels.lookup name = some chan → (i.outcome h).response.success = true →
      (h.step i).channels.lookup name = some (addUser chan i.caller.userId) ∧
        ∀ other, other ≠ name → (h.step i).channels.lookup other = h.channels.lookup other

theorem joinsByName (h : CommandHandler) (i : CommandInput) (hinv : KeysValid h) :
    JoinsByName h i := by
  intro name rest chan hjoin hargs hchan hsuccess
  have hname : sanitizeChannelName name = name :=
    sanitizeChannelName_of_isChannelKey (hinv name chan hchan)
  rcases lookup_step_join hjoin with ⟨-, hrefused, -⟩ | ⟨-, -, arg, rest', hargs', hlookup⟩
  · rw [hrefused] at hsuccess
    cases hsuccess
  · rw [hargs] at hargs'
    obtain ⟨rfl, -⟩ := List.cons.inj hargs'
    rw [hname] at hlookup
    constructor
    · rw [hlookup, if_pos rfl, hchan]
      rfl
    · intro other hother
      rw [hlookup, if_neg hother]

/-- Along every run of commands the keys are valid names, a join by such a name reaches that
channel, and the sanitizer is idempotent. -/
theorem channel_keys_valid (is : List CommandInput) :
    AllStates step KeysValid empty is ∧ AllSteps step JoinsByName empty is ∧
      ∀ s, sanitizeChannelName (sanitizeChannelName s) = sanitizeChannelName s :=
  ⟨allStates_keysValid is, (allStates_keysValid is).toSteps joinsByName, sanitizeChannelName_idem⟩

/-! ## Channel arguments -/

/-- The commands other than `/join` whose first argument is a channel. -/
def channelCommands : List CommandKind := [.part, .topic, .kick, .ban, .invite, .set, .mode]

/-- To the command of user `u`, the argument `s` stands for the channel. -/
def StandsFor (h : CommandHandler) (kind : CommandKind) (u s channel : Str) : Prop :=
  ∀ v db rest session,
    call kind v h db (s :: rest) ⟨session, u⟩ = call kind v h db (channel :: rest) ⟨session, u⟩

/-- `/part` with the argument `s` succeeds, and `u` has left the channel. -/
def PartLeaves (h : CommandHandler) (u s channel : Str) : Prop :=
  ∀ v db rest session, (cmdPart v h db (s :: rest) ⟨session, u⟩).response.success = true ∧
    ¬ IsMember (cmdPart v h db (s :: rest) ⟨session, u⟩).handler channel u

/-- Each of these commands refuses a channel that is not there. -/
theorem call_of_unknown {kind : CommandKind} (hkind : kind ∈ channelCommands) (v : Services)
    {h : CommandHandler} (db : Database) {s : Str} (hnone : h.channels.lookup s = none)
    (a b : Str) (rest : List Str) (caller : Caller) :
    ∃ command, call kind v h db (s :: a :: b :: rest) caller =
      .refuse h db (str "No such channel: " ++ s) command := by
  simp only [channelCommands, List.mem_cons, List.not_mem_nil, or_false] at hkind
  rcases hkind with rfl | rfl | rfl | rfl | rfl | rfl | rfl
  all_goals
    simp only [call, cmdPart, cmdTopic, cmdKick, cmdBan, cmdInvite, cmdSet, cmdMode, hnone]
    exact ⟨_, rfl⟩

/-- About a channel that is there they say something else. -/
theorem call_of_known {kind : CommandKind} (hkind : kind ∈ channelCommands) (v : Services)
    {h : CommandHandler} (db : Database) {channel : Str} {chan : ChannelState}
    (hchan : h.channels.lookup channel = some chan) (caller : Caller) :
    (call kind v h db [channel, [], []] caller).response.message.head? ≠ some (ch 'N') := by
  simp only [channelCommands, List.mem_cons, List.not_mem_nil, or_false] at hkind
  rcases hkind with rfl | rfl | rfl | rfl | rfl | rfl | rfl
  all_goals
    simp only [call, cmdPart, cmdTopic, cmdKick, cmdBan, cmdInvite, cmdSet, cmdMode, hchan]
    split_ifs
  all_goals simp [Outcome.refuse, Outcome.accept, makeResponse, str, ch]

/-- Under an argument that is no key there is no channel, and no command takes it for one. -/
theorem standsFor_iff {h : CommandHandler} (hinv : KeysValid h) {kind : CommandKind}
    (hkind : kind ∈ channelCommands) {u s : Str}
    (hchan : IsMember h (sanitizeChannelName s) u) :
    StandsFor h kind u s (sanitizeChannelName s) ↔ isChannelKey s = true := by
  constructor
  · intro hstands
    by_contra hkey
    have hnone : h.channels.lookup s = none := by
      cases hlook : h.channels.lookup s with
      | none => rfl
      | some chan => exact absurd (hinv s chan hlook) hkey
    obtain ⟨chan, hlook, -⟩ := hchan
    have hknown := call_of_known hkind .idle .empty hlook ⟨0, u⟩
    obtain ⟨command, hunknown⟩ := call_of_unknown hkind .idle .empty hnone [] [] [] ⟨0, u⟩
    rw [← hstands, hunknown] at hknown
    exact hknown rfl
  · intro hkey v db rest session
    rw [sanitizeChannelName_of_isChannelKey hkey]

/-- A member who parts is a member no more. -/
theorem partLeaves_of_isMember {h : CommandHandler} {u channel : Str}
    (hmember : IsMember h channel u) : PartLeaves h u channel channel := by
  intro v db rest session
  obtain ⟨chan, hchan, hu⟩ := hmember
  have hpart : ∃ actions message, cmdPart v h db (channel :: rest) ⟨session, u⟩ =
      .accept (h.setOrErase channel (removeUser chan u)) db actions message (str "part") := by
    simp only [cmdPart, hchan, hu, not_true, if_false]
    exact ⟨_, _, rfl⟩
  obtain ⟨actions, message, hpart⟩ := hpart
  rw [hpart]
  refine ⟨rfl, ?_⟩
  rintro ⟨chan', hchan', hu'⟩
  simp only [Outcome.accept, lookup_setOrErase, if_true] at hchan'
  rw [keepNonempty_eq_some hchan'] at hu'
  exact (mem_members_removeUser.1 hu').1 rfl

theorem partLeaves_iff {h : CommandHandler} (hinv : KeysValid h) {u s : Str}
    (hmember : IsMember h (sanitizeChannelName s) u) :
    PartLeaves h u s (sanitizeChannelName s) ↔ isChannelKey s = true := by
  constructor
  · intro hleaves
    have hsuccess := (hleaves .idle .empty [] 0).1
    cases hlook : h.channels.lookup s with
    | some chan => exact hinv s chan hlook
    | none =>
      simp only [cmdPart, hlook] at hsuccess
      cases hsuccess
  · intro hkey
    rw [sanitizeChannelName_of_isChannelKey hkey] at hmember ⊢
    exact partLeaves_of_isMember hmember

/-- After a successful `/join` with the argument `s` the user is in the channel of the sanitized
name.  The other commands take `s` for that channel exactly when `s` is its key. -/
theorem channel_arguments_agree_iff (is : List CommandInput) (i : CommandInput) (s : Str)
    (rest : List Str) (hjoin : i.kind (final step empty is) = some .join)
    (hargs : i.cmd.args = s :: rest)
    (hsuccess : (i.outcome (final step empty is)).response.success = true) :
    IsMember ((final step empty is).step i) (sanitizeChannelName s) i.caller.userId ∧
      (∀ kind ∈ channelCommands,
        StandsFor ((final step empty is).step i) kind i.caller.userId s (sanitizeChannelName s) ↔
          isChannelKey s = true) ∧
      (PartLeaves ((final step empty is).step i) i.caller.userId s (sanitizeChannelName s) ↔
        isChannelKey s = true) := by
  have hinv : KeysValid ((final step empty is).step i) :=
    keysValid_step _ i (allStates_keysValid is).final
  have hmember :
      IsMember ((final step empty is).step i) (sanitizeChannelName s) i.caller.userId := by
    rcases lookup_step_join hjoin with ⟨-, hrefused, -⟩ | ⟨-, -, arg, rest', hargs', hlookup⟩
    · rw [hrefused] at hsuccess
      cases hsuccess
    · rw [hargs] at hargs'
      obtain ⟨rfl, -⟩ := List.cons.inj hargs'
      exact ⟨_, (hlookup _).trans (if_pos rfl), mem_members_addUser.2 (Or.inl rfl)⟩
  exact ⟨hmember, fun kind hkind => standsFor_iff hinv hkind hmember, partLeaves_iff hinv hmember⟩

theorem channel_arguments_agree_general :
    IsMember (empty.step (.typed "alice" "join" ["#general"]))
        (sanitizeChannelName (str "#general")) (str "alice") ∧
      (∀ kind ∈ channelCommands,
        StandsFor (empty.step (.typed "alice" "join" ["#general"])) kind (str "alice")
          (str "#general") (sanitizeChannelName (str "#general")) ↔
            isChannelKey (str "#general") = true) ∧
      (PartLeaves (empty.step (.typed "alice" "join" ["#general"])) (str "alice")
        (str "#general") (sanitizeChannelName (str "#general")) ↔
          isChannelKey (str "#general") = true) :=
  channel_arguments_agree_iff [] (.typed "alice" "join" ["#general"]) (str "#general") []
    (by decide) rfl (by decide)

/-- Alice joins `general` and cannot leave `general`: only `#general` is there. -/
theorem not_partLeaves_general :
    ¬ ∀ (is : List CommandInput) (i : CommandInput) (s : Str) (rest : List Str),
      i.kind (final step empty is) = some .join → i.cmd.args = s :: rest →
        (i.outcome (final step empty is)).response.success = true →
          (∀ kind ∈ channelCommands, StandsFor ((final step empty is).step i) kind i.caller.userId s
            (sanitizeChannelName s)) ∧
          PartLeaves ((final step empty is).step i) i.caller.userId s (sanitizeChannelName s) := by
  intro h
  have hpart := (h [] (.typed "alice" "join" ["general"]) (str "general") [] (by decide) rfl
    (by decide)).2
  exact absurd (hpart .idle .empty [] 0).1 (by decide)

end CommandHandler

end Ircord

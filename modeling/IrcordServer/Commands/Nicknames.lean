import IrcordServer.Commands.Steps

/-!
# Nicknames

`nick_to_user_id_` and `user_id_to_nick_` are kept inverse to each other by hand.  `cmd_nick`
forgets the old nickname of its user, and takes the user id for it when there is none; this goes
wrong when that id is somebody's nickname, and only then.
-/

open Container Run

namespace Ircord

namespace CommandHandler

/-- The two nickname maps are inverse to each other. -/
def NicknamesInverse (h : CommandHandler) : Prop :=
  MutuallyInverse h.nickToUserId h.userIdToNick

/-- No two users hold one nickname, and a user's nickname resolves to that user. -/
def NicknamesResolve (h : CommandHandler) : Prop :=
  (∀ u u' nick, h.userIdToNick.lookup u = some nick → h.userIdToNick.lookup u' = some nick →
    u = u') ∧
  ∀ u nick, h.userIdToNick.lookup u = some nick → h.resolve nick = u

/-- The command gives no first nickname to a user whose id is somebody's nickname. -/
def FirstNickIdFree (h : CommandHandler) (i : CommandInput) : Prop :=
  newNick h i ≠ none → h.userIdToNick.lookup i.caller.userId = none →
    h.nickToUserId.lookup i.caller.userId = none

theorem nicknamesInverse_empty : NicknamesInverse empty := mutuallyInverse_empty

theorem NicknamesInverse.resolve {h : CommandHandler} (hinv : NicknamesInverse h) :
    NicknamesResolve h := by
  constructor
  · intro u u' nick hu hu'
    exact hinv.injective hu hu'
  · intro u nick hu
    unfold CommandHandler.resolve
    rw [(hinv nick u).2 hu, Option.getD_some]

/-- A granted nickname is nobody else's. -/
theorem owner_of_newNick {h : CommandHandler} {i : CommandInput} {nick owner : Str}
    (hnew : newNick h i = some nick) (howner : h.nickToUserId.lookup nick = some owner) :
    owner = i.caller.userId := by
  unfold newNick at hnew
  split_ifs at hnew
  unfold grantedNick at hnew
  split at hnew
  · cases hnew
  · split_ifs at hnew with htaken
    cases hnew
    rw [howner] at htaken
    simpa using htaken

/-- One step: from inverse maps, exactly a first nickname for a user whose id is taken as a
nickname breaks them. -/
theorem nicknamesInverse_step_iff (h : CommandHandler) (i : CommandInput)
    (hinv : NicknamesInverse h) : NicknamesInverse (h.step i) ↔ FirstNickIdFree h i := by
  have hsame := sameNicknames_step h i
  unfold NicknamesInverse FirstNickIdFree
  cases hnew : newNick h i with
  | none =>
    rw [hnew] at hsame
    rw [hsame.1, hsame.2]
    exact iff_of_true hinv fun hne => absurd rfl hne
  | some nick =>
    rw [hnew] at hsame
    rw [hsame.1, hsame.2]
    refine (hinv.relink_iff fun owner howner => owner_of_newNick hnew howner).trans ?_
    exact ⟨fun hfree _ => hfree, fun hfree => hfree (Option.some_ne_none nick)⟩

/-- In a run of commands from any users the nickname maps stay inverse to each other, so that
nicknames are unique and resolve to their users, exactly when nobody takes a first nickname while
its own id is somebody's nickname. -/
theorem nicknames_inverse_iff (is : List CommandInput) :
    AllStates step (fun h => NicknamesInverse h ∧ NicknamesResolve h) empty is ↔
      AllSteps step FirstNickIdFree empty is := by
  have hiff : AllStates step NicknamesInverse empty is ↔ AllSteps step FirstNickIdFree empty is :=
    allStates_iff_allSteps nicknamesInverse_empty nicknamesInverse_step_iff
  rw [← hiff]
  exact ⟨fun hall => hall.mono fun _ => And.left,
    fun hall => hall.mono fun _ hinv => ⟨hinv, hinv.resolve⟩⟩

/-- `bob` takes the id of `alice` as its nickname, then `alice` takes a nickname. -/
def idTakenRun : List CommandInput :=
  [.typed "bob" "nick" ["alice"], .typed "alice" "nick" ["carol"]]

/-- After the run `bob` still has the nickname `alice`, which no longer resolves to `bob`. -/
theorem not_nicknamesInverse_idTakenRun :
    ¬ AllStates step NicknamesInverse empty idTakenRun := by
  intro hall
  have hbob : (final step empty idTakenRun).userIdToNick.lookup (str "bob") = some (str "alice") ∧
      (final step empty idTakenRun).nickToUserId.lookup (str "alice") = none := by decide
  have hback := (hall.final (str "alice") (str "bob")).2 hbob.1
  rw [hbob.2] at hback
  cases hback

end CommandHandler

end Ircord

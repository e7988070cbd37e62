import IrcordServer.Commands.Effects
import IrcordServer.Commands.Steps
import IrcordServer.Db.OtherTables
import IrcordServer.MessageSizes

/-!
# How long replies to commands are

A reply quotes the arguments of its command, and puts topics, nicknames and the members of a channel
into one text, however long that gets.  `RepliesFit` says of a command that its replies can be read.
-/

open Container Protobuf

namespace Ircord

/-- The length of the arguments, each after a blank. -/
def joinedLength (args : List Str) : ℕ := (args.map fun arg => arg.length + 1).sum

/-- Nothing that is sent is too long to be read. -/
def Action.Fits (codec : Codec) : Action → Prop
  | .send _ env => env.Fits codec
  | .disconnect _ _ => True

/-- The stored messages can be sent on, but for those that nobody can read. -/
def Database.ReplaysFit (codec : Codec) (db : Database) : Prop :=
  ∀ r ∈ db.offlineMessages.rows, ∀ env ∈ codec.envelope.parse r.2.payload, env.Fits codec

instance (codec : Codec) (db : Database) : Decidable (db.ReplaysFit codec) :=
  inferInstanceAs (Decidable (∀ r ∈ _, ∀ env ∈ _, _))

section Stored

variable {codec : Codec} {db db' : Database}

theorem Database.ReplaysFit.of_rows (h : db.ReplaysFit codec)
    (hrows : ∀ r ∈ db'.offlineMessages.rows, r ∈ db.offlineMessages.rows) : db'.ReplaysFit codec :=
  fun r hr => h r (hrows r hr)

theorem Database.ReplaysFit.of_eq (h : db.ReplaysFit codec)
    (hsame : db'.offlineMessages = db.offlineMessages) : db'.ReplaysFit codec :=
  h.of_rows fun r hr => by rwa [hsame] at hr

theorem Database.ReplaysFit.save (h : db.ReplaysFit codec) {env : Envelope} (henv : env.Fits codec)
    (hparse : codec.envelope.parse (codec.envelope.serialize env) = some env)
    (userId : Str) (nowUnix : ℤ) :
    (OfflineStore.save db userId (codec.envelope.serialize env) nowUnix).2.ReplaysFit codec := by
  intro r hr
  rcases OfflineStore.mem_rows_save hr with hr | hr
  · exact h r hr
  · rw [hr, hparse]
    rintro _ ⟨⟩
    exact henv

end Stored

namespace CommandHandler

section Definitions

variable (h : CommandHandler) (userId : Str)

/-- The channel name and the members in a user list, each with a mark and a line break. -/
def listLength (channel : Str) (chan : ChannelState) : ℕ :=
  channel.length + (chan.members.elems.map fun u => (h.displayName u).length + 2).sum

def ListFits (channel : Str) : Prop :=
  ∀ chan ∈ h.channels.lookup channel, h.listLength channel chan ≤ maxContent

instance (channel : Str) : Decidable (h.ListFits channel) :=
  inferInstanceAs (Decidable (∀ chan ∈ _, _))

/-- What a command puts into its replies beside its arguments leaves room for them. -/
def CallFits (args : List Str) : CommandKind → Prop
  | .join => ∀ arg ∈ args.head?,
    let channel := sanitizeChannelName arg
    let chan := (h.channels.lookup channel).getD (newChannel channel)
    channel.length + chan.topic.length ≤ maxContent ∧
      h.listLength channel chan + (h.displayName userId).length ≤ maxContent
  | .part | .kick | .ban => ∀ channel ∈ args.head?, h.ListFits channel
  | .topic => ∀ channel ∈ args.head?, h.ListFits channel ∧
    ∀ chan ∈ h.channels.lookup channel, chan.topic.length ≤ maxContent
  | .nick => ∀ newNick ∈ args.head?, (h.displayName userId).length + newNick.length ≤ maxContent
  | .whois => ∀ target ∈ args.head?,
    let channels := (h.channels.entries.filter fun e => h.resolve target ∈ e.2.members).map (·.1)
    (h.resolve target).length + (h.displayName (h.resolve target)).length +
      (channels.map fun channel => channel.length + 4).sum ≤ maxContent
  | .quit => ∀ e ∈ h.channels.entries, userId ∈ e.2.members → h.listLength e.1 e.2 ≤ maxContent
  | _ => True

instance (args : List Str) (kind : CommandKind) : Decidable (h.CallFits userId args kind) := by
  cases kind <;> unfold CallFits <;> infer_instance

/-- The command and its arguments leave room in a frame, twice for an unknown command, and so does
what its function adds. -/
def RepliesFit (cmd : IrcCommand) : Prop :=
  cmd.command.length + joinedLength cmd.args ≤ maxContent ∧
    match commandMap.lookup (lowercase cmd.command) with
    | none => 2 * cmd.command.length ≤ maxContent
    | some kind => h.CallFits userId cmd.args kind

instance (cmd : IrcCommand) : Decidable (h.RepliesFit userId cmd) := by
  unfold RepliesFit
  cases commandMap.lookup (lowercase cmd.command) <;> infer_instance

end Definitions

/-! ## Texts -/

theorem length_joinArgs (first : Str) (rest : List Str) :
    (joinArgs first rest).length = first.length + joinedLength rest := by
  unfold joinArgs joinedLength
  induction rest generalizing first with
  | nil => rfl
  | cons arg rest ih =>
    rw [List.foldl_cons, ih, List.map_cons, List.sum_cons]
    simp [str]
    omega

theorem length_sanitizeStep_le (s : SanitizeState) (c : UInt8) :
    (sanitizeStep s c).result.length ≤ s.result.length + 1 := by
  unfold sanitizeStep
  split_ifs <;> simp

theorem length_sanitizeChannelName_le (input : Str) :
    (sanitizeChannelName input).length ≤ input.length + 1 := by
  have hfold (s : SanitizeState) :
      (input.foldl sanitizeStep s).result.length ≤ s.result.length + input.length := by
    induction input generalizing s with
    | nil => exact Nat.le_refl _
    | cons c input ih =>
      have hstep := length_sanitizeStep_le s c
      have hrest := ih (sanitizeStep s c)
      rw [List.foldl_cons, List.length_cons]
      omega
  have hresult := hfold ⟨[], false, false⟩
  unfold sanitizeChannelName
  dsimp only at hresult ⊢
  rw [List.length_nil] at hresult
  split_ifs
  · simp [str]
  · rw [List.length_cons]
    omega
  · omega

theorem length_lowercase (s : Str) : (lowercase s).length = s.length := List.length_map ..

section Lists

variable {h : CommandHandler} {channel userId : Str} {chan chan' : ChannelState}

theorem length_userList_le :
    (h.userList channel chan).length ≤ h.listLength channel chan + 11 := by
  have hfold (us : List Str) (text : Str) :
      (us.foldl (fun text uid =>
        let mark :=
          if uid ∈ chan.operators then str "@" else if uid ∈ chan.voiced then str "+" else []
        text ++ mark ++ h.displayName uid ++ str "\n") text).length ≤
          text.length + (us.map fun u => (h.displayName u).length + 2).sum := by
    induction us generalizing text with
    | nil => exact Nat.le_refl _
    | cons u us ih =>
      rw [List.foldl_cons]
      refine (ih _).trans ?_
      rw [List.map_cons, List.sum_cons]
      dsimp only
      split_ifs <;> simp [str] <;> omega
  refine (hfold _ _).trans ?_
  unfold listLength
  simp [str]
  omega

theorem listLength_mono (hsub : chan'.members.elems.Sublist chan.members.elems) :
    h.listLength channel chan' ≤ h.listLength channel chan :=
  Nat.add_le_add_left ((hsub.map _).sum_le_sum fun _ _ => Nat.zero_le _) _

theorem listLength_insert (hmembers : chan'.members = chan.members.insert userId) :
    h.listLength channel chan' ≤
      h.listLength channel chan + (h.displayName userId).length + 2 := by
  unfold listLength
  rw [hmembers, UnorderedSet.elems_insert]
  split_ifs
  · omega
  · rw [List.map_cons, List.sum_cons]
    omega

end Lists

/-! ## Replies -/

/-- Whatever the server itself puts into a response leaves room for the content. -/
def Brief (response : CommandResponse) : Prop :=
  response.message.length + response.command.length ≤ maxContent + 192

theorem fits_responseEnvelope {codec : Codec} [compact : codec.Compact]
    {response : CommandResponse} (hbrief : Brief response) :
    (responseEnvelope codec response).Fits codec := by
  have hbrief : response.message.length + response.command.length ≤ maxContent + 192 := hbrief
  have hmax := maxContent_eq
  have hlength := compact.commandResponse_le response.success response.message response.command
    (by omega) (by omega)
  exact Envelope.fits_of_payload (show MessageType.code .commandResponse ≠ 0 by decide)
    (hlength.trans (by omega))

/-- Nothing that the command sends or stores, nor its response, is too long. -/
structure Fitting (codec : Codec) (db : Database) (o : Outcome) : Prop where
  actions : ∀ a ∈ o.actions, a.Fits codec
  response : Brief o.response
  stored : db.ReplaysFit codec → o.db.ReplaysFit codec

section Replies

variable {codec : Codec} {v : Services} {h : CommandHandler} {db : Database} {args : List Str}
  {caller : Caller}
  {message command channel : Str} {actions : List Action}

theorem fitting_refuse (hbrief : message.length + command.length ≤ maxContent + 192) :
    Fitting codec db (.refuse h db message command) :=
  ⟨List.forall_mem_nil _, hbrief, id⟩

theorem fitting_accept (hactions : ∀ a ∈ actions, a.Fits codec)
    (hbrief : message.length + command.length ≤ maxContent + 192) :
    Fitting codec db (.accept h db actions message command) :=
  ⟨hactions, hbrief, id⟩

theorem fits_userList [compact : v.codec.Compact] {chan : ChannelState}
    (hlist : h.listLength channel chan ≤ maxContent + 2) :
    (responseEnvelope v.codec
      (makeResponse true (h.userList channel chan) (str "names"))).Fits v.codec := by
  have hlength := @length_userList_le h channel chan
  refine fits_responseEnvelope ?_
  show (h.userList channel chan).length + (str "names").length ≤ maxContent + 192
  simp only [str, List.length_map, String.reduceToList, List.length_cons, List.length_nil]
  omega

theorem fits_broadcastUserList [compact : v.codec.Compact]
    (hlist : ∀ chan ∈ h.channels.lookup channel, h.listLength channel chan ≤ maxContent + 2) :
    ∀ a ∈ broadcastUserList v h channel, a.Fits v.codec := by
  unfold broadcastUserList
  split
  · exact List.forall_mem_nil _
  · rename_i chan hchan
    intro a ha
    obtain ⟨session, -, rfl⟩ := List.mem_map.1 ha
    exact fits_userList (hlist chan hchan)

theorem fits_sendUserList [compact : v.codec.Compact] (session : SessionId)
    (hlist : ∀ chan ∈ h.channels.lookup channel, h.listLength channel chan ≤ maxContent + 2) :
    ∀ a ∈ sendUserList v h channel session, a.Fits v.codec := by
  unfold sendUserList
  split
  · exact List.forall_mem_nil _
  · rename_i chan hchan
    exact List.forall_mem_singleton.2 (fits_userList (hlist chan hchan))

theorem fits_toTarget [compact : v.codec.Compact] (userId : Str) {response : CommandResponse}
    (hbrief : Brief response) :
    ∀ a ∈ (v.findSession userId).toList.map fun session =>
      Action.send session (responseEnvelope v.codec response), a.Fits v.codec := by
  intro a ha
  obtain ⟨session, -, rfl⟩ := List.mem_map.1 ha
  exact fits_responseEnvelope hbrief

/-! ## Each command -/

theorem joinedLength_cons (arg : Str) (rest : List Str) :
    joinedLength (arg :: rest) = arg.length + 1 + joinedLength rest := by
  unfold joinedLength
  rw [List.map_cons, List.sum_cons]

theorem length_head_le (rest : List Str) (default : Str) :
    (rest.head?.getD default).length ≤ joinedLength rest + default.length := by
  cases rest with
  | nil => exact Nat.le_add_left _ _
  | cons arg rest =>
    rw [joinedLength_cons]
    show arg.length ≤ _
    omega

/-- The members of the changed channel are among those of the channel that was there. -/
theorem fits_notifyChannelPart [compact : v.codec.Compact] {chan chan' : ChannelState}
    (hlist : h.ListFits channel) (hchan : h.channels.lookup channel = some chan)
    (hsub : chan'.members.elems.Sublist chan.members.elems) :
    ∀ a ∈ notifyChannelPart v (h.setChannel channel chan') channel, a.Fits v.codec := by
  refine fits_broadcastUserList fun chan'' hchan'' => ?_
  rw [lookup_setChannel, if_pos rfl] at hchan''
  cases hchan''
  exact (listLength_mono hsub).trans ((hlist chan hchan).trans (Nat.le_add_right _ 2))

theorem fitting_cmdPart [compact : v.codec.Compact] (hargs : joinedLength args ≤ maxContent)
    (hlist : ∀ channel ∈ args.head?, h.ListFits channel) :
    Fitting v.codec db (cmdPart v h db args caller) := by
  unfold cmdPart
  cases args with
  | nil => exact fitting_refuse (by decide)
  | cons channel rest =>
    rw [joinedLength_cons] at hargs
    dsimp only
    split
    · refine fitting_refuse ?_
      simp [str]
      omega
    · rename_i chan hchan
      split
      · refine fitting_refuse ?_
        simp [str]
        omega
      · refine fitting_accept (fits_notifyChannelPart (hlist channel rfl) hchan
          (UnorderedSet.elems_erase_sublist _ _)) ?_
        simp [str]
        omega

theorem fitting_cmdKick [compact : v.codec.Compact] (huser : caller.userId.length ≤ 64)
    (hargs : joinedLength args ≤ maxContent)
    (hlist : ∀ channel ∈ args.head?, h.ListFits channel) :
    Fitting v.codec db (cmdKick v h db args caller) := by
  unfold cmdKick
  split
  · rename_i channel target rest
    rw [joinedLength_cons, joinedLength_cons] at hargs
    have hreason := length_head_le rest (str "Kicked")
    have hdefault : (str "Kicked").length = 6 := by decide
    dsimp only
    split
    · refine fitting_refuse ?_
      simp [str]
      omega
    · rename_i chan hchan
      split
      · exact fitting_refuse (by decide)
      split
      · refine fitting_refuse ?_
        simp [str]
        omega
      split
      · refine fitting_refuse ?_
        simp [str]
        omega
      · refine fitting_accept (List.forall_mem_append.2
          ⟨fits_notifyChannelPart (hlist channel rfl) hchan
            (UnorderedSet.elems_erase_sublist _ _), fits_toTarget _ ?_⟩) ?_
        · generalize rest.head?.getD (str "Kicked") = reason at hreason ⊢
          simp [Brief, makeResponse, str]
          omega
        · simp [str]
          omega
  · exact fitting_refuse (by decide)

theorem fitting_cmdBan [compact : v.codec.Compact] (hargs : joinedLength args ≤ maxContent)
    (hlist : ∀ channel ∈ args.head?, h.ListFits channel) :
    Fitting v.codec db (cmdBan v h db args caller) := by
  unfold cmdBan
  split
  · rename_i channel target rest
    rw [joinedLength_cons, joinedLength_cons] at hargs
    dsimp only
    split
    · refine fitting_refuse ?_
      simp [str]
      omega
    · rename_i chan hchan
      split
      · exact fitting_refuse (by decide)
      split
      · refine fitting_accept (fits_notifyChannelPart (hlist channel rfl) hchan
          (UnorderedSet.elems_erase_sublist _ _)) ?_
        simp [str]
        omega
      · refine fitting_accept (List.forall_mem_nil _) ?_
        simp [str]
        omega
  · exact fitting_refuse (by decide)

theorem fitting_cmdInvite [compact : v.codec.Compact] (huser : caller.userId.length ≤ 64)
    (hargs : joinedLength args ≤ maxContent) :
    Fitting v.codec db (cmdInvite v h db args caller) := by
  unfold cmdInvite
  split
  · rename_i channel target rest
    rw [joinedLength_cons, joinedLength_cons] at hargs
    have hmessage := length_head_le rest []
    dsimp only
    split
    · refine fitting_refuse ?_
      simp [str]
      omega
    · split
      · exact fitting_refuse (by decide)
      · refine fitting_accept (fits_toTarget _ ?_) ?_
        · generalize rest.head?.getD [] = message at hmessage ⊢
          split
          all_goals
            simp [Brief, makeResponse, str] at hmessage ⊢
            omega
        · simp [str]
          omega
  · exact fitting_refuse (by decide)

theorem fitting_cmdTopic [compact : v.codec.Compact] (hargs : joinedLength args ≤ maxContent)
    (hlist : ∀ channel ∈ args.head?, h.ListFits channel ∧
      ∀ chan ∈ h.channels.lookup channel, chan.topic.length ≤ maxContent) :
    Fitting v.codec db (cmdTopic v h db args caller) := by
  unfold cmdTopic
  cases args with
  | nil => exact fitting_refuse (by decide)
  | cons channel rest =>
    rw [joinedLength_cons] at hargs
    dsimp only
    split
    · refine fitting_refuse ?_
      simp [str]
      omega
    · rename_i chan hchan
      split
      · refine fitting_refuse ?_
        simp [str]
        omega
      cases rest with
      | nil =>
        have htopic := (hlist channel rfl).2 chan hchan
        refine fitting_accept (List.forall_mem_nil _) ?_
        split
        · decide
        · simp [str]
          omega
      | cons first rest =>
        rw [joinedLength_cons] at hargs
        have hjoin := length_joinArgs first rest
        dsimp only
        split
        · exact fitting_refuse (by decide)
        · refine fitting_accept (fits_notifyChannelPart (hlist channel rfl).1 hchan
            (List.Sublist.refl _)) ?_
          simp [str, hjoin]
          omega

theorem fitting_cmdMe (huser : caller.userId.length ≤ 64)
    (hargs : joinedLength args ≤ maxContent) : Fitting codec db (cmdMe h db args caller) := by
  unfold cmdMe
  cases args with
  | nil => exact fitting_refuse (by decide)
  | cons first rest =>
    rw [joinedLength_cons] at hargs
    have hjoin := length_joinArgs first rest
    refine fitting_accept (List.forall_mem_nil _) ?_
    simp [str, hjoin]
    omega

theorem fitting_cmdMsg (hargs : joinedLength args ≤ maxContent) :
    Fitting codec db (cmdMsg v h db args) := by
  unfold cmdMsg
  split
  · rename_i target first rest
    rw [joinedLength_cons, joinedLength_cons] at hargs
    have hjoin := length_joinArgs first rest
    split
    · refine fitting_refuse ?_
      simp [str]
      omega
    · refine fitting_accept (List.forall_mem_nil _) ?_
      simp [str, hjoin]
      omega
  · exact fitting_refuse (by decide)

theorem fitting_cmdSet (hargs : joinedLength args ≤ maxContent) :
    Fitting codec db (cmdSet h db args caller) := by
  unfold cmdSet
  split
  · rename_i channel option value rest
    rw [joinedLength_cons, joinedLength_cons] at hargs
    have hoption := length_lowercase option
    have hon : (boolText (isOn value)).length ≤ 5 := by cases isOn value <;> decide
    dsimp only
    split
    · refine fitting_refuse ?_
      simp [str]
      omega
    · repeat' split
      · exact fitting_refuse (by decide)
      iterate 3
        · refine fitting_accept (List.forall_mem_nil _) ?_
          simp [str]
          omega
      · refine fitting_refuse ?_
        simp [str]
        omega
  · exact fitting_refuse (by decide)

theorem fitting_cmdMode (hargs : joinedLength args ≤ maxContent) :
    Fitting codec db (cmdMode h db args caller) := by
  unfold cmdMode
  split
  · rename_i channel mode target rest
    rw [joinedLength_cons, joinedLength_cons, joinedLength_cons] at hargs
    dsimp only
    split
    · refine fitting_refuse ?_
      simp [str]
      omega
    · repeat' split
      · exact fitting_refuse (by decide)
      · refine fitting_refuse ?_
        simp [str]
        omega
      iterate 4
        · refine fitting_accept (List.forall_mem_nil _) ?_
          simp [str]
          omega
      · refine fitting_refuse ?_
        simp [str]
        omega
  · exact fitting_refuse (by decide)

theorem fitting_cmdPassword : Fitting codec db (cmdPassword v h db args caller) := by
  have hstored (hash : Option PwHash) (oldPass : Str) : db.ReplaysFit codec →
      (UserStore.updatePassword db v.crypto caller.userId oldPass hash).2.ReplaysFit codec :=
    fun hdb => hdb.of_eq (UserStore.onlyUsers_updatePassword _ _ _ _).offlineMessages
  unfold cmdPassword
  split
  · rename_i oldPass newPass rest
    have hstored := hstored v.pwhash oldPass
    repeat' split
    · exact fitting_refuse (by decide)
    · exact fitting_refuse (by decide)
    · rename_i hupdate
      rw [hupdate] at hstored
      have hbrief : (str "Password updated successfully").length + (str "password").length ≤
          maxContent + 192 := by decide
      exact ⟨List.forall_mem_nil _, hbrief, hstored⟩
    · rename_i hupdate
      rw [hupdate] at hstored
      have hbrief : (str "Old password is incorrect").length + (str "password").length ≤
          maxContent + 192 := by decide
      exact ⟨List.forall_mem_nil _, hbrief, hstored⟩
  · exact fitting_refuse (by decide)

theorem fitting_cmdResetdb : Fitting codec db (cmdResetdb h db caller) := by
  unfold cmdResetdb
  split
  · exact fitting_refuse (by decide)
  · unfold Database.deleteAllUsers
    split_ifs
    · have hbrief :
          (str "Database cleared successfully. All users and keys removed.").length +
            (str "resetdb").length ≤ maxContent + 192 := by decide
      exact ⟨List.forall_mem_nil _, hbrief, fun hdb =>
        hdb.of_rows fun r hr => (Sql.Table.mem_retain.1 hr).1⟩
    · exact fitting_refuse (by decide)

/-- The channels of the user shrink while it leaves them. -/
theorem listFits_partChannel {name : Str} (hlist : h.ListFits name) (userId : Str) :
    (h.partChannel channel userId).ListFits name := by
  intro chan hchan
  have hsame : (h.partChannel channel userId).userIdToNick = h.userIdToNick :=
    (sameNicknames_partChannel h channel userId).2
  have hlength (chan : ChannelState) :
      (h.partChannel channel userId).listLength name chan = h.listLength name chan := by
    unfold listLength displayName
    rw [hsame]
  rw [lookup_partChannel] at hchan
  rw [hlength]
  split_ifs at hchan
  · obtain ⟨chan', hchan', hkeep⟩ := Option.bind_eq_some_iff.1 hchan
    rw [keepNonempty_eq_some hkeep]
    exact (listLength_mono (UnorderedSet.elems_erase_sublist _ _)).trans (hlist chan' hchan')
  · exact hlist chan hchan

theorem fitting_cmdQuit [compact : v.codec.Compact]
    (hlist : ∀ e ∈ h.channels.entries, caller.userId ∈ e.2.members →
      h.listLength e.1 e.2 ≤ maxContent) :
    Fitting v.codec db (cmdQuit v h db args caller) := by
  have hfold (channels : List Str) (acc : CommandHandler × List Action)
      (hfits : ∀ name ∈ channels, acc.1.ListFits name) (hacc : ∀ a ∈ acc.2, a.Fits v.codec) :
      ∀ a ∈ (channels.foldl (fun acc channel =>
        let h := acc.1.partChannel channel caller.userId
        (h, acc.2 ++ notifyChannelPart v h channel)) acc).2, a.Fits v.codec := by
    induction channels generalizing acc with
    | nil => exact hacc
    | cons channel channels ih =>
      refine ih _ (fun name hname => ?_) (List.forall_mem_append.2 ⟨hacc, ?_⟩)
      · exact listFits_partChannel (hfits name (List.mem_cons_of_mem _ hname)) _
      · refine fits_broadcastUserList fun chan hchan => ?_
        exact (listFits_partChannel (hfits channel List.mem_cons_self) caller.userId chan
          hchan).trans (Nat.le_add_right _ 2)
  refine fitting_accept (List.forall_mem_append.2 ⟨?_, List.forall_mem_singleton.2 trivial⟩)
    (by decide)
  refine hfold _ (h, []) (fun name hname => ?_) (List.forall_mem_nil _)
  obtain ⟨chan, hchan, hmember⟩ := (h.mem_channelsOf).1 hname
  intro chan' hchan'
  rw [Option.mem_def.1 hchan'] at hchan
  cases hchan
  exact hlist ⟨name, chan⟩ (AList.mem_lookup_iff.1 hchan') hmember

theorem fitting_cmdWhois [compact : v.codec.Compact]
    (hlist : h.CallFits caller.userId args .whois) : Fitting v.codec db (cmdWhois v h db args) := by
  unfold cmdWhois
  cases args with
  | nil => exact fitting_refuse (by decide)
  | cons target rest =>
    have hlist := hlist target rfl
    dsimp only at hlist ⊢
    set channels :=
      (h.channels.entries.filter fun e => h.resolve target ∈ e.2.members).map (·.1)
    have hmax := maxContent_eq
    have hlength := compact.userInfo_le (h.resolve target) (h.displayName (h.resolve target))
      (v.findSession (h.resolve target)).isSome channels (by omega) (by omega) fun l hl => by
        have hle : l.length + 4 ≤ (channels.map fun channel => channel.length + 4).sum :=
          List.single_le_sum (fun _ _ => Nat.zero_le _) _ (List.mem_map_of_mem hl)
        omega
    refine fitting_accept (List.forall_mem_nil _) ?_
    have hwhois : (str "whois").length = 5 := by decide
    omega

/-- A nickname change goes out in one envelope to the members of each channel of the user, and is
stored for those who are offline. -/
theorem fits_broadcastNickChange [compact : v.codec.Compact] {userId old new : Str}
    (hnames : old.length + new.length ≤ maxContent) :
    (∀ a ∈ (broadcastNickChange v h db userId ⟨old, new⟩).2, a.Fits v.codec) ∧
      (db.ReplaysFit v.codec →
        (broadcastNickChange v h db userId ⟨old, new⟩).1.ReplaysFit v.codec) := by
  have hmax := maxContent_eq
  set env : Envelope := ⟨0, 0, .nickChange, v.codec.nickChange.serialize ⟨old, new⟩⟩
  have hpayload : env.payload.length ≤ old.length + new.length + 8 :=
    compact.nickChange_le old new (by omega) (by omega)
  have henv : env.Fits v.codec :=
    Envelope.fits_of_payload (show MessageType.code .nickChange ≠ 0 by decide)
      (hpayload.trans (by omega))
  have hparse : v.codec.envelope.parse (v.codec.envelope.serialize env) = some env :=
    compact.parse_serialize .nickChange env.payload (by decide) (by omega)
  -- what holds while the channels and the members of each are visited
  let P (acc : Database × List Action) : Prop :=
    (∀ a ∈ acc.2, a.Fits v.codec) ∧ (db.ReplaysFit v.codec → acc.1.ReplaysFit v.codec)
  suffices hall : P (broadcastNickChange v h db userId ⟨old, new⟩) from hall
  unfold broadcastNickChange
  refine List.foldlRecOn _ _ ⟨List.forall_mem_nil _, id⟩ fun acc hacc entry _ => ?_
  split_ifs
  · have hchannel : P (broadcastToChannel v h acc.1 entry.1 env) := by
      unfold broadcastToChannel
      split
      · exact ⟨List.forall_mem_nil _, hacc.2⟩
      · refine List.foldlRecOn _ _ ⟨List.forall_mem_nil _, hacc.2⟩ fun acc hacc member _ => ?_
        split
        · exact ⟨List.forall_mem_append.2 ⟨hacc.1, List.forall_mem_singleton.2 henv⟩, hacc.2⟩
        · refine ⟨hacc.1, fun hdb => ?_⟩
          exact (hacc.2 hdb).save henv hparse _ _
    exact ⟨List.forall_mem_append.2 ⟨hacc.1, hchannel.1⟩, hchannel.2⟩
  · exact hacc

theorem fitting_cmdNick [compact : v.codec.Compact] (hargs : joinedLength args ≤ maxContent)
    (hnames : ∀ newNick ∈ args.head?,
      (h.displayName caller.userId).length + newNick.length ≤ maxContent) :
    Fitting v.codec db (cmdNick v h db args caller) := by
  unfold cmdNick
  cases args with
  | nil => exact fitting_refuse (by decide)
  | cons newNick rest =>
    rw [joinedLength_cons] at hargs
    dsimp only
    split
    · refine fitting_refuse ?_
      simp [str]
      omega
    · obtain ⟨hactions, hstored⟩ := @fits_broadcastNickChange v { h with
        nickToUserId := (h.nickToUserId.erase (h.displayName caller.userId)).insert newNick
          caller.userId
        userIdToNick := h.userIdToNick.insert caller.userId newNick } db _ caller.userId _ newNick
          (hnames newNick rfl)
      refine ⟨hactions, ?_, hstored⟩
      simp [Brief, Outcome.accept, makeResponse, str]
      omega

/-- Rate limits aside, the handler after `get_or_create_channel` has the same nicknames. -/
theorem getOrCreateChannel_eq (userId name : Str) (limits : UserRateLimits) :
    ∃ h', (h.setRateLimits userId limits).getOrCreateChannel name =
        ((h.channels.lookup name).getD (newChannel name), h') ∧
      h'.userIdToNick = h.userIdToNick := by
  cases hchan : h.channels.lookup name with
  | none =>
    rw [getOrCreateChannel_of_none (h := h.setRateLimits userId limits) hchan]
    exact ⟨_, rfl, rfl⟩
  | some chan =>
    rw [getOrCreateChannel_of_some (h := h.setRateLimits userId limits) hchan]
    exact ⟨_, rfl, rfl⟩

/-- The user comes to the members of the channel. -/
theorem fitting_cmdJoin [compact : v.codec.Compact] (hargs : joinedLength args ≤ maxContent)
    (hlist : h.CallFits caller.userId args .join) :
    Fitting v.codec db (cmdJoin v h db args caller) := by
  unfold cmdJoin
  cases args with
  | nil => exact fitting_refuse (by decide)
  | cons arg rest =>
    rw [joinedLength_cons] at hargs
    obtain ⟨htopic, hlist⟩ := hlist arg rfl
    have hname := length_sanitizeChannelName_le arg
    dsimp only at htopic hlist ⊢
    generalize sanitizeChannelName arg = channel at hname htopic hlist ⊢
    split
    · exact fitting_refuse (by decide)
    split
    · exact fitting_refuse (by decide)
    obtain ⟨h', hget, hnick⟩ := @getOrCreateChannel_eq h caller.userId channel
      ⟨(h.rateLimits v.now caller.userId).commandLimiter,
        ((h.rateLimits v.now caller.userId).joinLimiter.allow v.now).2⟩
    rw [hget]
    generalize (h.channels.lookup channel).getD (newChannel channel) = chan at htopic hlist ⊢
    dsimp only
    split
    · refine fitting_refuse ?_
      simp [str]
      omega
    split
    · refine fitting_refuse ?_
      simp [str]
      omega
    -- the list has the user among the members
    have hlists : ∀ chan', chan'.members = chan.members.insert caller.userId →
        ∀ chan'' ∈ (h'.setChannel channel chan').channels.lookup channel,
          (h'.setChannel channel chan').listLength channel chan'' ≤ maxContent + 2 := by
      intro chan' hmembers chan'' hchan''
      rw [lookup_setChannel, if_pos rfl] at hchan''
      cases hchan''
      have hlength := @listLength_insert h channel caller.userId chan chan' hmembers
      have hsame : (h'.setChannel channel chan').listLength channel chan' =
          h.listLength channel chan' := by
        unfold listLength displayName
        show _ + (List.map (fun u => ((h'.userIdToNick.lookup u).getD u).length + 2) _).sum = _
        rw [hnick]
      omega
    refine fitting_accept (List.forall_mem_append.2
      ⟨fits_broadcastUserList (hlists _ rfl), fits_sendUserList _ (hlists _ rfl)⟩) ?_
    split
    all_goals
      simp [str]
      omega

theorem fitting_call {kind : CommandKind} [compact : v.codec.Compact]
    (huser : caller.userId.length ≤ 64) (hargs : joinedLength args ≤ maxContent)
    (hcall : h.CallFits caller.userId args kind) :
    Fitting v.codec db (call kind v h db args caller) := by
  cases kind with
  | join => exact fitting_cmdJoin hargs hcall
  | part => exact fitting_cmdPart hargs hcall
  | nick => exact fitting_cmdNick hargs hcall
  | whois => exact fitting_cmdWhois hcall
  | me => exact fitting_cmdMe huser hargs
  | topic => exact fitting_cmdTopic hargs hcall
  | kick => exact fitting_cmdKick huser hargs hcall
  | ban => exact fitting_cmdBan hargs hcall
  | invite => exact fitting_cmdInvite huser hargs
  | set => exact fitting_cmdSet hargs
  | mode => exact fitting_cmdMode hargs
  | password => exact fitting_cmdPassword
  | quit => exact fitting_cmdQuit hcall
  | msg => exact fitting_cmdMsg hargs
  | resetdb => exact fitting_cmdResetdb

/-- The response to a command that reaches no function repeats its name, at most twice. -/
theorem fitting_undispatched {cmd : IrcCommand}
    (hd : dispatched v.now h cmd caller.userId = none) (hfits : h.RepliesFit caller.userId cmd) :
    Fitting v.codec db (handleCommand v h db cmd caller) := by
  have hname := length_lowercase cmd.command
  obtain ⟨hcmd, hkind⟩ := hfits
  unfold dispatched admitted at hd
  unfold handleCommand
  simp only at hd ⊢
  split_ifs with hempty hban hrate
  · exact fitting_refuse (by decide)
  · refine fitting_refuse ?_
    simp [str]
    omega
  · refine fitting_refuse ?_
    simp [str]
    omega
  · have hnone : commandMap.lookup (lowercase cmd.command) = none := by
      rwa [if_neg (by simpa [hempty, hban] using hrate)] at hd
    rw [hnone] at hkind ⊢
    refine fitting_refuse ?_
    simp [str]
    omega

theorem fitting_handleCommand {cmd : IrcCommand} [compact : v.codec.Compact]
    (huser : caller.userId.length ≤ 64) (hfits : h.RepliesFit caller.userId cmd) :
    Fitting v.codec db (handleCommand v h db cmd caller) := by
  cases hkind : dispatched v.now h cmd caller.userId with
  | none => exact fitting_undispatched hkind hfits
  | some kind =>
    obtain ⟨limits, records, e, -⟩ := @handleCommand_dispatched v h db cmd caller kind hkind
    obtain ⟨hcmd, hcall⟩ := hfits
    have hlookup : commandMap.lookup (lowercase cmd.command) = some kind := by
      unfold dispatched at hkind
      split_ifs at hkind
      exact hkind
    rw [hlookup] at hcall
    rw [e]
    exact @fitting_call v (h.withLimits limits records) _ _ _ _ _ huser (by omega) hcall

end Replies

end CommandHandler

end Ircord

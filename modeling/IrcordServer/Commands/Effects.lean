import IrcordServer.Commands.Dispatch

/-!
# What a command does to the rest of the server

A command writes to its caller and to sessions that are found for some user, and to no others.  It
leaves the users and their identity keys alone, unless it is a `/resetdb` of the admin.
-/

open Container

namespace Ircord

namespace CommandHandler

/-- The sessions a command may write to. -/
def Reachable (v : Services) (caller : Caller) (session : SessionId) : Prop :=
  session = caller.session ∨ Found v.findSession session

/-- The envelope around a nickname change. -/
def nickChangeEnvelope (codec : Codec) (change : NickChange) : Envelope :=
  ⟨0, 0, .nickChange, codec.nickChange.serialize change⟩

/-- The actions of commands. -/
inductive Notice (v : Services) (caller : Caller) : Action → Prop
  | response (session : SessionId) (response : CommandResponse)
      (reachable : Reachable v caller session) :
      Notice v caller (.send session (responseEnvelope v.codec response))
  | nickChange (session : SessionId) (change : NickChange)
      (found : Found v.findSession session) :
      Notice v caller (.send session (nickChangeEnvelope v.codec change))
  | disconnect (reason : Str) : Notice v caller (.disconnect caller.session reason)

def Notices (v : Services) (caller : Caller) (actions : List Action) : Prop :=
  ∀ a ∈ actions, Notice v caller a

theorem notices_nil {v : Services} {caller : Caller} : Notices v caller [] :=
  List.forall_mem_nil _

theorem notices_singleton {v : Services} {caller : Caller} {a : Action} (h : Notice v caller a) :
    Notices v caller [a] :=
  List.forall_mem_singleton.2 h

theorem Notices.append {v : Services} {caller : Caller} {as bs : List Action}
    (ha : Notices v caller as) (hb : Notices v caller bs) : Notices v caller (as ++ bs) :=
  List.forall_mem_append.2 ⟨ha, hb⟩

/-- What commands do to the tables. -/
inductive TableChange (v : Services) (caller : Caller) (db : Database) : Database → Prop
  | same : TableChange v caller db db
  | store (db' : Database) (userId : Str) (change : NickChange)
      (before : TableChange v caller db db') :
      TableChange v caller db
        (OfflineStore.save db' userId
          (v.codec.envelope.serialize (nickChangeEnvelope v.codec change)) v.nowUnix).2
  | password (oldPassword : Str) :
      TableChange v caller db
        (UserStore.updatePassword db v.crypto caller.userId oldPassword v.pwhash).2
  | resetdb (db' : Database) (admin : caller.userId = adminUser)
      (deleted : db.deleteAllUsers = .ok db') :
      TableChange v caller db
        (OfflineStore.deleteMessages ((db'.deleteSignedPrekeys fun _ => true).deleteOneTimePrekeys
          fun _ => true) fun _ => true)

/-- An outcome with such actions and tables. -/
structure Reports (v : Services) (db : Database) (caller : Caller) (o : Outcome) : Prop where
  notices : Notices v caller o.actions
  tables : TableChange v caller db o.db

section Reports

variable {v : Services} {h : CommandHandler} {db : Database} {args : List Str} {caller : Caller}

theorem reports_refuse (message command : Str) :
    Reports v db caller (.refuse h db message command) :=
  ⟨notices_nil, .same⟩

theorem reports_accept {actions : List Action} (message command : Str)
    (notices : Notices v caller actions) :
    Reports v db caller (.accept h db actions message command) :=
  ⟨notices, .same⟩

/-- A fold whose rounds only append notices and change the tables so does no more. -/
theorem reports_foldl {β : Type} {f : Database × List Action → β → Database × List Action}
    (hf : ∀ acc b, Notices v caller acc.2 ∧ TableChange v caller db acc.1 →
      Notices v caller (f acc b).2 ∧ TableChange v caller db (f acc b).1)
    (bs : List β) (acc : Database × List Action)
    (hacc : Notices v caller acc.2 ∧ TableChange v caller db acc.1) :
    Notices v caller (bs.foldl f acc).2 ∧ TableChange v caller db (bs.foldl f acc).1 := by
  induction bs generalizing acc with
  | nil => exact hacc
  | cons b bs ih => exact ih _ (hf acc b hacc)

/-! ## The notices -/

theorem notice_toTarget (userId : Str) (response : CommandResponse) :
    Notices v caller ((v.findSession userId).toList.map fun session =>
      .send session (responseEnvelope v.codec response)) := by
  intro a ha
  obtain ⟨session, hsession, rfl⟩ := List.mem_map.1 ha
  exact .response session response (Or.inr ⟨userId, Option.mem_toList.1 hsession⟩)

theorem notice_broadcastUserList (channel : Str) :
    Notices v caller (broadcastUserList v h channel) := by
  unfold broadcastUserList
  split
  · exact notices_nil
  · intro a ha
    obtain ⟨session, hsession, rfl⟩ := List.mem_map.1 ha
    obtain ⟨userId, -, hfound⟩ := List.mem_filterMap.1 hsession
    exact .response session _ (Or.inr ⟨userId, hfound⟩)

theorem notice_sendUserList (channel : Str) :
    Notices v caller (sendUserList v h channel caller.session) := by
  unfold sendUserList
  split
  · exact notices_nil
  · exact notices_singleton (.response _ _ (Or.inl rfl))

/-- Members that are online get the nickname change, the others have it stored. -/
theorem reports_broadcastToChannel {db' : Database} (hdb' : TableChange v caller db db')
    (channel : Str) (change : NickChange) :
    Notices v caller (broadcastToChannel v h db' channel (nickChangeEnvelope v.codec change)).2 ∧
      TableChange v caller db
        (broadcastToChannel v h db' channel (nickChangeEnvelope v.codec change)).1 := by
  unfold broadcastToChannel
  split
  · exact ⟨notices_nil, hdb'⟩
  · refine reports_foldl (fun acc userId hacc => ?_) _ (db', []) ⟨notices_nil, hdb'⟩
    cases hfound : v.findSession userId with
    | none => exact ⟨hacc.1, .store acc.1 userId change hacc.2⟩
    | some session =>
      exact ⟨hacc.1.append (notices_singleton (.nickChange session change ⟨userId, hfound⟩)),
        hacc.2⟩

theorem reports_broadcastNickChange (userId : Str) (change : NickChange) :
    Notices v caller (broadcastNickChange v h db userId change).2 ∧
      TableChange v caller db (broadcastNickChange v h db userId change).1 := by
  refine reports_foldl (fun acc entry hacc => ?_) _ (db, []) ⟨notices_nil, .same⟩
  split_ifs
  · obtain ⟨hmore, htables⟩ :=
      @reports_broadcastToChannel v h db caller acc.1 hacc.2 entry.1 change
    exact ⟨hacc.1.append hmore, htables⟩
  · exact hacc

/-! ## Each command -/

theorem reports_cmdJoin : Reports v db caller (cmdJoin v h db args caller) := by
  unfold cmdJoin
  dsimp only
  repeat' split
  any_goals exact reports_refuse _ _
  all_goals exact reports_accept _ _ ((notice_broadcastUserList _).append (notice_sendUserList _))

theorem reports_cmdPart : Reports v db caller (cmdPart v h db args caller) := by
  unfold cmdPart
  dsimp only
  repeat' split
  any_goals exact reports_refuse _ _
  all_goals exact reports_accept _ _ (notice_broadcastUserList _)

theorem reports_cmdNick : Reports v db caller (cmdNick v h db args caller) := by
  unfold cmdNick
  dsimp only
  repeat' split
  any_goals exact reports_refuse _ _
  exact ⟨(reports_broadcastNickChange _ _).1, (reports_broadcastNickChange _ _).2⟩

theorem reports_cmdWhois : Reports v db caller (cmdWhois v h db args) := by
  unfold cmdWhois
  split
  · exact reports_refuse _ _
  · exact reports_accept _ _ notices_nil

theorem reports_cmdMe : Reports v db caller (cmdMe h db args caller) := by
  unfold cmdMe
  split
  · exact reports_refuse _ _
  · exact reports_accept _ _ notices_nil

theorem reports_cmdTopic : Reports v db caller (cmdTopic v h db args caller) := by
  unfold cmdTopic
  dsimp only
  repeat' split
  any_goals exact reports_refuse _ _
  all_goals
    first
    | exact reports_accept _ _ notices_nil
    | exact reports_accept _ _ (notice_broadcastUserList _)

theorem reports_cmdKick : Reports v db caller (cmdKick v h db args caller) := by
  unfold cmdKick
  dsimp only
  repeat' split
  any_goals exact reports_refuse _ _
  exact reports_accept _ _ ((notice_broadcastUserList _).append (notice_toTarget _ _))

theorem reports_cmdBan : Reports v db caller (cmdBan v h db args caller) := by
  unfold cmdBan
  dsimp only
  repeat' split
  any_goals exact reports_refuse _ _
  all_goals
    first
    | exact reports_accept _ _ notices_nil
    | exact reports_accept _ _ (notice_broadcastUserList _)

theorem reports_cmdInvite : Reports v db caller (cmdInvite v h db args caller) := by
  unfold cmdInvite
  dsimp only
  repeat' split
  any_goals exact reports_refuse _ _
  all_goals exact reports_accept _ _ (notice_toTarget _ _)

theorem reports_cmdSet : Reports v db caller (cmdSet h db args caller) := by
  unfold cmdSet
  dsimp only
  repeat' split
  all_goals
    first | exact reports_refuse _ _ | exact reports_accept _ _ notices_nil

theorem reports_cmdMode : Reports v db caller (cmdMode h db args caller) := by
  unfold cmdMode
  dsimp only
  repeat' split
  all_goals
    first | exact reports_refuse _ _ | exact reports_accept _ _ notices_nil

theorem reports_cmdMsg : Reports v db caller (cmdMsg v h db args) := by
  unfold cmdMsg
  repeat' split
  all_goals
    first | exact reports_refuse _ _ | exact reports_accept _ _ notices_nil

/-- Only the hash of the caller is written. -/
theorem reports_cmdPassword : Reports v db caller (cmdPassword v h db args caller) := by
  unfold cmdPassword
  repeat' split
  any_goals exact reports_refuse _ _
  all_goals
    rename_i oldPass _ _ _ _ _ db' hupdate
    refine ⟨notices_nil, ?_⟩
    show TableChange v caller db db'
    rw [show db' = (UserStore.updatePassword db v.crypto caller.userId oldPass v.pwhash).2 by
      rw [hupdate]]
    exact .password oldPass

theorem reports_cmdQuit : Reports v db caller (cmdQuit v h db args caller) := by
  unfold cmdQuit
  refine reports_accept _ _ (Notices.append ?_ (notices_singleton (.disconnect _)))
  refine Action.forall_mem_foldl (fun acc channel hactions => ?_) _ _ notices_nil
  exact Notices.append hactions (notice_broadcastUserList _)

theorem reports_cmdResetdb : Reports v db caller (cmdResetdb h db caller) := by
  unfold cmdResetdb
  split_ifs with hadmin
  · exact reports_refuse _ _
  · split
    · exact reports_refuse _ _
    · rename_i db' hdelete
      exact ⟨notices_nil, .resetdb db' (not_ne_iff.1 hadmin) hdelete⟩

theorem reports_call (kind : CommandKind) :
    Reports v db caller (call kind v h db args caller) := by
  cases kind with
  | join => exact reports_cmdJoin
  | part => exact reports_cmdPart
  | nick => exact reports_cmdNick
  | whois => exact reports_cmdWhois
  | me => exact reports_cmdMe
  | topic => exact reports_cmdTopic
  | kick => exact reports_cmdKick
  | ban => exact reports_cmdBan
  | invite => exact reports_cmdInvite
  | set => exact reports_cmdSet
  | mode => exact reports_cmdMode
  | msg => exact reports_cmdMsg
  | password => exact reports_cmdPassword
  | quit => exact reports_cmdQuit
  | resetdb => exact reports_cmdResetdb

theorem reports_handleCommand (cmd : IrcCommand) :
    Reports v db caller (handleCommand v h db cmd caller) := by
  cases hkind : dispatched v.now h cmd caller.userId with
  | none =>
    obtain ⟨_, _, _, _, e⟩ := handleCommand_undispatched hkind
    rw [e]
    exact reports_refuse _ _
  | some kind =>
    obtain ⟨_, _, e, -⟩ := handleCommand_dispatched hkind
    rw [e]
    exact reports_call kind

end Reports

/-! ## The users table -/

section Users

variable {v : Services} {h : CommandHandler} {db : Database} {args : List Str} {caller : Caller}

theorem users_broadcastToChannel (db : Database) (channel : Str) (env : Envelope) :
    (broadcastToChannel v h db channel env).1.users = db.users := by
  unfold broadcastToChannel
  split
  · rfl
  · apply List.foldlRecOn (motive := fun acc : Database × List Action => acc.1.users = db.users)
    · rfl
    · intro acc hacc userId _
      cases v.findSession userId with
      | some session => exact hacc
      | none => exact (OfflineStore.users_save _ _ _ _).trans hacc

theorem users_broadcastNickChange (userId : Str) (change : NickChange) :
    (broadcastNickChange v h db userId change).1.users = db.users := by
  unfold broadcastNickChange
  apply List.foldlRecOn (motive := fun acc : Database × List Action => acc.1.users = db.users)
  · rfl
  · intro acc hacc entry _
    dsimp only
    split_ifs
    · exact (users_broadcastToChannel _ _ _).trans hacc
    · exact hacc

/-- Commands other than `/password` and `/resetdb` leave the users table as it is. -/
theorem users_call {kind : CommandKind} (hpassword : kind ≠ .password)
    (hresetdb : kind ≠ .resetdb) :
    (call kind v h db args caller).db.users = db.users := by
  cases kind with
  | password => exact absurd rfl hpassword
  | resetdb => exact absurd rfl hresetdb
  | nick =>
    show (cmdNick v h db args caller).db.users = db.users
    unfold cmdNick
    dsimp only
    repeat' split
    any_goals rfl
    exact users_broadcastNickChange _ _
  | join | part | whois | me | topic | kick | ban | invite | set | mode | msg | quit =>
    simp only [call, cmdJoin, cmdPart, cmdWhois, cmdMe, cmdTopic, cmdKick, cmdBan, cmdInvite,
      cmdSet, cmdMode, cmdMsg, cmdQuit]
    repeat' split
    all_goals rfl

end Users

/-! ## What follows -/

/-- The outcome reaches only those sessions, and keeps the users. -/
structure Contained (v : Services) (db : Database) (caller : Caller) (o : Outcome) : Prop where
  about : Action.About (Reachable v caller) o.actions
  keys : UserStore.KeysKept (caller.userId = adminUser) db o.db

section Contained

variable {v : Services} {h : CommandHandler} {db db' : Database} {caller : Caller}

theorem TableChange.keys (hchange : TableChange v caller db db') :
    UserStore.KeysKept (caller.userId = adminUser) db db' := by
  induction hchange with
  | same => exact UserStore.keysKept_of_users_eq rfl
  | store db' userId change before ih =>
    have hsave (payload : Bytes) :
        UserStore.KeysKept False db' (OfflineStore.save db' userId payload v.nowUnix).2 :=
      UserStore.keysKept_of_users_eq (OfflineStore.users_save _ _ _ _)
    exact ih.trans (hsave _) False.elim
  | password oldPassword => exact UserStore.keysKept_updatePassword rfl
  | resetdb db' admin deleted =>
    refine Or.inr ⟨admin, fun u => ?_⟩
    unfold Database.deleteAllUsers at deleted
    split_ifs at deleted
    cases deleted
    rfl

theorem contained_handleCommand (cmd : IrcCommand) :
    Contained v db caller (handleCommand v h db cmd caller) := by
  obtain ⟨hnotices, htables⟩ := @reports_handleCommand v h db caller cmd
  refine ⟨fun a ha => ?_, htables.keys⟩
  cases hnotices a ha with
  | response session response reachable => exact reachable
  | nickChange session change found => exact Or.inr found
  | disconnect reason => exact Or.inl rfl

end Contained

end CommandHandler

end Ircord

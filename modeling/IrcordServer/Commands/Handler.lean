import IrcordServer.Action
import IrcordServer.Db.OfflineStore
import IrcordServer.Db.UserStore
import IrcordServer.Names
import IrcordServer.RateLimiter

/-!
# The command handler

`commands/command_handler.cpp`.  A handler call takes the handler state and the tables and returns
an `Outcome`: both afterwards, the envelopes written to sessions, and the response.  What the
handler asks of the rest of the server (who is online, the clocks, the password hash drawn) comes
with the call as `Services`.
-/

open Container

namespace Ircord

structure ChannelState where
  name : Str
  topic : Str
  members : UnorderedSet Str
  operators : UnorderedSet Str
  voiced : UnorderedSet Str
  banned : UnorderedSet Str
  inviteOnly : Bool
  moderated : Bool
  topicRestricted : Bool
  invites : UnorderedSet Str
  deriving DecidableEq

structure UserRateLimits where
  commandLimiter : RateLimiter
  joinLimiter : RateLimiter

structure AbuseRecord where
  violations : ℕ
  firstViolation : Time
  lastViolation : Time
  banned : Bool

structure CommandHandler where
  channels : UnorderedMap Str ChannelState
  nickToUserId : UnorderedMap Str Str
  userIdToNick : UnorderedMap Str Str
  userRateLimits : UnorderedMap Str UserRateLimits
  abuseRecords : UnorderedMap Str AbuseRecord

/-- The session a command came from. -/
structure Caller where
  session : SessionId
  userId : Str

/-- What a handler call asks of the rest of the server. -/
structure Services where
  findSession : Str → Option SessionId
  codec : Codec
  crypto : Crypto
  now : Time
  nowUnix : ℤ
  pwhash : Option PwHash

structure Outcome where
  handler : CommandHandler
  db : Database
  actions : List Action
  response : CommandResponse

def makeResponse (success : Bool) (message command : Str) : CommandResponse :=
  ⟨success, message, command⟩

/-- The response `success = false`. -/
def Outcome.refuse (h : CommandHandler) (db : Database) (message command : Str) : Outcome :=
  ⟨h, db, [], makeResponse false message command⟩

/-- The response `success = true`. -/
def Outcome.accept (h : CommandHandler) (db : Database) (actions : List Action)
    (message command : Str) : Outcome :=
  ⟨h, db, actions, makeResponse true message command⟩

/-- The envelope around a command response; its `seq` and time stamp stay unset. -/
def responseEnvelope (codec : Codec) (response : CommandResponse) : Envelope :=
  ⟨0, 0, .commandResponse, codec.commandResponse.serialize response⟩

namespace CommandHandler

/-! ## Rate limits and abuse records -/

def maxViolations : ℕ := 5

def violationWindow : Time := minutes 10

def banDuration : Time := minutes 30

def empty : CommandHandler := ⟨∅, ∅, ∅, ∅, ∅⟩

def newRateLimits (now : Time) : UserRateLimits :=
  ⟨.new 30 (seconds 60) now, .new 5 (seconds 60) now⟩

/-- `user_rate_limits_.emplace`: the limits of the user, new ones if it has none. -/
def rateLimits (h : CommandHandler) (now : Time) (userId : Str) : UserRateLimits :=
  (h.userRateLimits.lookup userId).getD (newRateLimits now)

def setRateLimits (h : CommandHandler) (userId : Str) (limits : UserRateLimits) : CommandHandler :=
  { h with userRateLimits := h.userRateLimits.insert userId limits }

/-- `track_abuse`: whether the user is banned now. -/
def trackAbuse (h : CommandHandler) (now : Time) (userId : Str) : Bool × CommandHandler :=
  let record := (h.abuseRecords.lookup userId).getD ⟨0, now, 0, false⟩
  let record :=
    if now - record.firstViolation > violationWindow then
      { record with violations := 0, firstViolation := now, banned := false }
    else record
  let record := { record with violations := record.violations + 1, lastViolation := now }
  if record.violations ≥ maxViolations then
    (true, { h with abuseRecords := h.abuseRecords.insert userId { record with banned := true } })
  else (false, { h with abuseRecords := h.abuseRecords.insert userId record })

/-- `is_abuser`: an expired ban is forgotten together with its record. -/
def isAbuser (h : CommandHandler) (now : Time) (userId : Str) : Bool × CommandHandler :=
  match h.abuseRecords.lookup userId with
  | none => (false, h)
  | some record =>
    if record.banned then
      if now - record.lastViolation > banDuration then
        (false, { h with abuseRecords := h.abuseRecords.erase userId })
      else (true, h)
    else (false, h)

/-! ## Helpers -/

def setChannel (h : CommandHandler) (channel : Str) (chan : ChannelState) : CommandHandler :=
  { h with channels := h.channels.insert channel chan }

def eraseChannel (h : CommandHandler) (channel : Str) : CommandHandler :=
  { h with channels := h.channels.erase channel }

/-- The entry `get_or_create_channel` puts under an unused name. -/
def newChannel (name : Str) : ChannelState :=
  ⟨name, [], ∅, ∅, ∅, ∅, false, false, true, ∅⟩

/-- `get_or_create_channel`: the channel, and the handler that has it. -/
def getOrCreateChannel (h : CommandHandler) (name : Str) : ChannelState × CommandHandler :=
  match h.channels.lookup name with
  | none => (newChannel name, h.setChannel name (newChannel name))
  | some chan => (chan, h)

/-- The nickname of a user, its id when it has none. -/
def displayName (h : CommandHandler) (userId : Str) : Str :=
  (h.userIdToNick.lookup userId).getD userId

/-- The user a command argument names: by nickname, else by id. -/
def resolve (h : CommandHandler) (target : Str) : Str :=
  (h.nickToUserId.lookup target).getD target

/-- The text of a user list. -/
def userList (h : CommandHandler) (channel : Str) (chan : ChannelState) : Str :=
  chan.members.elems.foldl
    (fun text uid =>
      let mark :=
        if uid ∈ chan.operators then str "@" else if uid ∈ chan.voiced then str "+" else []
      text ++ mark ++ h.displayName uid ++ str "\n")
    (str "Users in " ++ channel ++ str ":\n")

def sendUserList (v : Services) (h : CommandHandler) (channel : Str) (session : SessionId) :
    List Action :=
  match h.channels.lookup channel with
  | none => []
  | some chan =>
    [.send session
      (responseEnvelope v.codec (makeResponse true (h.userList channel chan) (str "names")))]

/-- `broadcast_user_list`: to every member that is online. -/
def broadcastUserList (v : Services) (h : CommandHandler) (channel : Str) : List Action :=
  match h.channels.lookup channel with
  | none => []
  | some chan =>
    let env := responseEnvelope v.codec (makeResponse true (h.userList channel chan) (str "names"))
    (chan.members.elems.filterMap v.findSession).map fun session => .send session env

def notifyChannelJoin (v : Services) (h : CommandHandler) (channel : Str) : List Action :=
  broadcastUserList v h channel

def notifyChannelPart (v : Services) (h : CommandHandler) (channel : Str) : List Action :=
  broadcastUserList v h channel

/-- `broadcast_to_channel` without an excluded session: members that are offline get the envelope
stored. -/
def broadcastToChannel (v : Services) (h : CommandHandler) (db : Database) (channel : Str)
    (env : Envelope) : Database × List Action :=
  match h.channels.lookup channel with
  | none => (db, [])
  | some chan =>
    chan.members.elems.foldl
      (fun acc userId =>
        match v.findSession userId with
        | some session => (acc.1, acc.2 ++ [.send session env])
        | none =>
          ((OfflineStore.save acc.1 userId (v.codec.envelope.serialize env) v.nowUnix).2, acc.2))
      (db, [])

/-- The three sets a leaving user is taken out of. -/
def removeUser (chan : ChannelState) (userId : Str) : ChannelState :=
  { chan with
    members := chan.members.erase userId
    operators := chan.operators.erase userId
    voiced := chan.voiced.erase userId }

/-- Put a channel back, or drop it once it is empty. -/
def setOrErase (h : CommandHandler) (channel : Str) (chan : ChannelState) : CommandHandler :=
  if chan.members.size = 0 then h.eraseChannel channel else h.setChannel channel chan

def partChannel (h : CommandHandler) (channel userId : Str) : CommandHandler :=
  match h.channels.lookup channel with
  | none => h
  | some chan => h.setOrErase channel (removeUser chan userId)

/-! ## The commands -/

section Commands

variable (v : Services) (h : CommandHandler) (db : Database) (args : List Str) (caller : Caller)

def cmdJoin : Outcome :=
  match args with
  | [] => .refuse h db (str "Usage: /join <#channel>") (str "join")
  | arg :: _ =>
    let channel := sanitizeChannelName arg
    if !isValidChannelName channel then .refuse h db (str "Invalid channel name") (str "join")
    else
      let userId := caller.userId
      let limits := h.rateLimits v.now userId
      let (allowed, joinLimiter) := limits.joinLimiter.allow v.now
      let h := h.setRateLimits userId { limits with joinLimiter := joinLimiter }
      if !allowed then
        let (_, h) := h.trackAbuse v.now userId
        .refuse h db (str "Rate limit exceeded: too many channel joins. Slow down.") (str "join")
      else
        let (chan, h) := h.getOrCreateChannel channel
        if userId ∈ chan.banned then
          .refuse h db (str "You are banned from " ++ channel) (str "join")
        else if chan.inviteOnly ∧ userId ∉ chan.invites ∧ userId ∉ chan.operators then
          .refuse h db (channel ++ str " is invite-only") (str "join")
        else
          let members := chan.members.insert userId
          let operators :=
            if members.size = 1 then chan.operators.insert userId else chan.operators
          let chan := { chan with members := members, operators := operators }
          let h := h.setChannel channel chan
          let topicMsg :=
            if chan.topic.isEmpty then str "No topic set" else str "Topic: " ++ chan.topic
          .accept h db (notifyChannelJoin v h channel ++ sendUserList v h channel caller.session)
            (str "Joined " ++ channel ++ str "\n" ++ topicMsg) (str "join")

def cmdPart : Outcome :=
  match args with
  | [] => .refuse h db (str "Usage: /part <#channel> [message]") (str "part")
  | channel :: _ =>
    match h.channels.lookup channel with
    | none => .refuse h db (str "No such channel: " ++ channel) (str "part")
    | some chan =>
      let userId := caller.userId
      if userId ∉ chan.members then
        .refuse h db (str "You are not in " ++ channel) (str "part")
      else
        let chan := removeUser chan userId
        -- the list is sent before an emptied channel is dropped
        .accept (h.setOrErase channel chan) db
          (notifyChannelPart v (h.setChannel channel chan) channel)
          (str "Left " ++ channel) (str "part")

/-- The loop over the channels in `cmd_nick`. -/
def broadcastNickChange (userId : Str) (change : NickChange) : Database × List Action :=
  h.channels.entries.foldl
    (fun acc entry =>
      if userId ∈ entry.2.members then
        let env : Envelope := ⟨0, 0, .nickChange, v.codec.nickChange.serialize change⟩
        let (db, actions) := broadcastToChannel v h acc.1 entry.1 env
        (db, acc.2 ++ actions)
      else acc)
    (db, [])

def cmdNick : Outcome :=
  match args with
  | [] => .refuse h db (str "Usage: /nick <new_nick>") (str "nick")
  | newNick :: _ =>
    let userId := caller.userId
    let oldNick := (h.userIdToNick.lookup userId).getD userId
    if ((h.nickToUserId.lookup newNick).any fun owner => owner != userId) then
      .refuse h db (str "Nickname " ++ newNick ++ str " is already in use") (str "nick")
    else
      let h := { h with
        nickToUserId := (h.nickToUserId.erase oldNick).insert newNick userId
        userIdToNick := h.userIdToNick.insert userId newNick }
      let (db, actions) := broadcastNickChange v h db userId ⟨oldNick, newNick⟩
      .accept h db actions (str "You are now known as " ++ newNick) (str "nick")

def cmdWhois : Outcome :=
  match args with
  | [] => .refuse h db (str "Usage: /whois <nick>") (str "whois")
  | target :: _ =>
    let targetId := h.resolve target
    let info : UserInfo :=
      { userId := targetId
        nickname := h.displayName targetId
        isOnline := (v.findSession targetId).isSome
        channels := (h.channels.entries.filter fun e => targetId ∈ e.2.members).map (·.1) }
    .accept h db [] (v.codec.userInfo.serialize info) (str "whois")

def cmdMe : Outcome :=
  match args with
  | [] => .refuse h db (str "Usage: /me <action>") (str "me")
  | first :: rest =>
    .accept h db [] (str "Action: " ++ caller.userId ++ str " " ++ joinArgs first rest) (str "me")

def cmdTopic : Outcome :=
  match args with
  | [] => .refuse h db (str "Usage: /topic <#channel> [new_topic]") (str "topic")
  | channel :: rest =>
    match h.channels.lookup channel with
    | none => .refuse h db (str "No such channel: " ++ channel) (str "topic")
    | some chan =>
      let userId := caller.userId
      if userId ∉ chan.members then
        .refuse h db (str "You are not in " ++ channel) (str "topic")
      else match rest with
        | [] =>
          .accept h db [] (if chan.topic.isEmpty then str "No topic set" else chan.topic)
            (str "topic")
        | first :: rest =>
          if chan.topicRestricted ∧ userId ∉ chan.operators then
            .refuse h db (str "Only operators can change the topic") (str "topic")
          else
            let topic := joinArgs first rest
            let h := h.setChannel channel { chan with topic := topic }
            .accept h db (notifyChannelJoin v h channel) (str "Topic changed to: " ++ topic)
              (str "topic")

def cmdKick : Outcome :=
  match args with
  | channel :: target :: rest =>
    let reason := rest.head?.getD (str "Kicked")
    match h.channels.lookup channel with
    | none => .refuse h db (str "No such channel: " ++ channel) (str "kick")
    | some chan =>
      let userId := caller.userId
      if userId ∉ chan.operators then
        .refuse h db (str "Only operators can kick users") (str "kick")
      else if h.nickToUserId.lookup target = none ∧ target ∉ chan.members then
        .refuse h db (str "User not found: " ++ target) (str "kick")
      else
        let targetId := h.resolve target
        if targetId ∉ chan.members then
          .refuse h db (target ++ str " is not in " ++ channel) (str "kick")
        else
          let h := h.setChannel channel (removeUser chan targetId)
          let kickMsg := makeResponse false
            (str "You were kicked from " ++ channel ++ str " by " ++ userId ++ str ": " ++ reason)
            (str "kick")
          let toTarget := (v.findSession targetId).toList.map fun session =>
            Action.send session (responseEnvelope v.codec kickMsg)
          .accept h db (notifyChannelPart v h channel ++ toTarget)
            (str "Kicked " ++ target ++ str " from " ++ channel) (str "kick")
  | _ => .refuse h db (str "Usage: /kick <#channel> <nick> [reason]") (str "kick")

def cmdBan : Outcome :=
  match args with
  | channel :: target :: _ =>
    match h.channels.lookup channel with
    | none => .refuse h db (str "No such channel: " ++ channel) (str "ban")
    | some chan =>
      let userId := caller.userId
      if userId ∉ chan.operators then
        .refuse h db (str "Only operators can ban users") (str "ban")
      else
        let targetId := h.resolve target
        let chan := { chan with banned := chan.banned.insert targetId }
        let message := str "Banned " ++ target ++ str " from " ++ channel
        if targetId ∈ chan.members then
          let h := h.setChannel channel { chan with members := chan.members.erase targetId }
          .accept h db (notifyChannelPart v h channel) message (str "ban")
        else .accept (h.setChannel channel chan) db [] message (str "ban")
  | _ => .refuse h db (str "Usage: /ban <#channel> <nick>") (str "ban")

def cmdInvite : Outcome :=
  match args with
  | channel :: target :: rest =>
    let message := rest.head?.getD []
    match h.channels.lookup channel with
    | none => .refuse h db (str "No such channel: " ++ channel) (str "invite")
    | some chan =>
      let userId := caller.userId
      if userId ∉ chan.operators then
        .refuse h db (str "Only operators can invite users") (str "invite")
      else
        let targetId := h.resolve target
        let h := h.setChannel channel { chan with invites := chan.invites.insert targetId }
        let inviteMsg := makeResponse true
          (userId ++ str " invited you to " ++ channel ++
            (if message.isEmpty then [] else str ": " ++ message))
          (str "invite")
        let toTarget := (v.findSession targetId).toList.map fun session =>
          Action.send session (responseEnvelope v.codec inviteMsg)
        .accept h db toTarget (str "Invited " ++ target ++ str " to " ++ channel) (str "invite")
  | _ => .refuse h db (str "Usage: /invite <#channel> <nick> [message]") (str "invite")

/-- The values that switch an option on. -/
def isOn (value : Str) : Bool := value == str "true" || value == str "1" || value == str "on"

def boolText (b : Bool) : Str := if b then str "true" else str "false"

def cmdSet : Outcome :=
  match args with
  | channel :: option :: value :: _ =>
    match h.channels.lookup channel with
    | none => .refuse h db (str "No such channel: " ++ channel) (str "set")
    | some chan =>
      if caller.userId ∉ chan.operators then
        .refuse h db (str "Only operators can change channel settings") (str "set")
      else
        let option := lowercase option
        let on := isOn value
        if option = str "invite_only" then
          .accept (h.setChannel channel { chan with inviteOnly := on }) db []
            (str "invite_only set to " ++ boolText on) (str "set")
        else if option = str "moderated" then
          .accept (h.setChannel channel { chan with moderated := on }) db []
            (str "moderated set to " ++ boolText on) (str "set")
        else if option = str "topic_restricted" then
          .accept (h.setChannel channel { chan with topicRestricted := on }) db []
            (str "topic_restricted set to " ++ boolText on) (str "set")
        else .refuse h db (str "Unknown option: " ++ option) (str "set")
  | _ => .refuse h db (str "Usage: /set <#channel> <option> <value>") (str "set")

def cmdMode : Outcome :=
  match args with
  | channel :: mode :: target :: _ =>
    match h.channels.lookup channel with
    | none => .refuse h db (str "No such channel: " ++ channel) (str "mode")
    | some chan =>
      if caller.userId ∉ chan.operators then
        .refuse h db (str "Only operators can change modes") (str "mode")
      else
        let targetId := h.resolve target
        if targetId ∉ chan.members then
          .refuse h db (target ++ str " is not in " ++ channel) (str "mode")
        else if mode = str "+o" then
          .accept (h.setChannel channel { chan with operators := chan.operators.insert targetId })
            db [] (str "Gave operator status to " ++ target) (str "mode")
        else if mode = str "-o" then
          .accept (h.setChannel channel { chan with operators := chan.operators.erase targetId })
            db [] (str "Removed operator status from " ++ target) (str "mode")
        else if mode = str "+v" then
          .accept (h.setChannel channel { chan with voiced := chan.voiced.insert targetId })
            db [] (str "Gave voice to " ++ target) (str "mode")
        else if mode = str "-v" then
          .accept (h.setChannel channel { chan with voiced := chan.voiced.erase targetId })
            db [] (str "Removed voice from " ++ target) (str "mode")
        else .refuse h db (str "Unknown mode: " ++ mode) (str "mode")
  | _ => .refuse h db (str "Usage: /mode <#channel> <+o|-o> <nick>") (str "mode")

def cmdPassword : Outcome :=
  match args with
  | oldPass :: newPass :: _ =>
    if newPass.length < 8 then
      .refuse h db (str "New password must be at least 8 characters") (str "password")
    else if !(newPass.any isUpper && newPass.any isLower && newPass.any isDigit) then
      .refuse h db
        (str "Password must contain at least one uppercase letter, one lowercase letter, " ++
          str "and one digit")
        (str "password")
    else
      match UserStore.updatePassword db v.crypto caller.userId oldPass v.pwhash with
      | (true, db) => .accept h db [] (str "Password updated successfully") (str "password")
      | (false, db) => .refuse h db (str "Old password is incorrect") (str "password")
  | _ => .refuse h db (str "Usage: /password <old_password> <new_password>") (str "password")

def cmdQuit : Outcome :=
  let reason := args.head?.getD (str "Quit")
  let userId := caller.userId
  let channelsToLeave := (h.channels.entries.filter fun e => userId ∈ e.2.members).map (·.1)
  let (h, actions) := channelsToLeave.foldl
    (fun acc channel =>
      let h := acc.1.partChannel channel userId
      (h, acc.2 ++ notifyChannelPart v h channel))
    (h, [])
  .accept h db (actions ++ [.disconnect caller.session (str "Quit: " ++ reason)])
    (str "Goodbye!") (str "quit")

def cmdMsg : Outcome :=
  match args with
  | target :: first :: rest =>
    match v.findSession (h.resolve target) with
    | none => .refuse h db (target ++ str " is offline") (str "msg")
    | some _ =>
      .accept h db [] (str "-> " ++ target ++ str ": " ++ joinArgs first rest) (str "msg")
  | _ => .refuse h db (str "Usage: /msg <nick> <message>") (str "msg")

def adminUser : Str := str "admin"

def cmdResetdb : Outcome :=
  if caller.userId ≠ adminUser then
    .refuse h db (str "Permission denied: only admin can reset database") (str "resetdb")
  else
    match db.deleteAllUsers with
    | .error e => .refuse h db (str "Database error: " ++ e.what) (str "resetdb")
    | .ok db =>
      let db := db.deleteSignedPrekeys fun _ => true
      let db := db.deleteOneTimePrekeys fun _ => true
      let db := OfflineStore.deleteMessages db fun _ => true
      .accept h db [] (str "Database cleared successfully. All users and keys removed.")
        (str "resetdb")

end Commands

end CommandHandler

/-! ## The dispatch table -/

/-- The functions in `command_map_`. -/
inductive CommandKind
  | join | part | nick | whois | me | topic | kick | ban | invite | set | mode | password | quit
  | msg | resetdb
  deriving DecidableEq

/-- `command_map_`. -/
def commandMap : List (Str × CommandKind) :=
  [(str "join", .join), (str "part", .part), (str "leave", .part), (str "nick", .nick),
    (str "whois", .whois), (str "me", .me), (str "action", .me), (str "topic", .topic),
    (str "kick", .kick), (str "ban", .ban), (str "invite", .invite), (str "set", .set),
    (str "mode", .mode), (str "password", .password), (str "pass", .password), (str "quit", .quit),
    (str "msg", .msg), (str "query", .msg), (str "resetdb", .resetdb)]

namespace CommandHandler

/-- The function behind an entry of the table. -/
def call (kind : CommandKind) (v : Services) (h : CommandHandler) (db : Database)
    (args : List Str) (caller : Caller) : Outcome :=
  match kind with
  | .join => cmdJoin v h db args caller
  | .part => cmdPart v h db args caller
  | .nick => cmdNick v h db args caller
  | .whois => cmdWhois v h db args
  | .me => cmdMe h db args caller
  | .topic => cmdTopic v h db args caller
  | .kick => cmdKick v h db args caller
  | .ban => cmdBan v h db args caller
  | .invite => cmdInvite v h db args caller
  | .set => cmdSet h db args caller
  | .mode => cmdMode h db args caller
  | .password => cmdPassword v h db args caller
  | .quit => cmdQuit v h db args caller
  | .msg => cmdMsg v h db args
  | .resetdb => cmdResetdb h db caller

def handleCommand (v : Services) (h : CommandHandler) (db : Database) (cmd : IrcCommand)
    (caller : Caller) : Outcome :=
  if cmd.command.isEmpty then .refuse h db (str "Empty command") []
  else
    let userId := caller.userId
    let (abuser, h) := h.isAbuser v.now userId
    if abuser then
      .refuse h db
        (str "You are temporarily banned due to rate limit violations. Please wait.") cmd.command
    else
      let limits := h.rateLimits v.now userId
      let (allowed, commandLimiter) := limits.commandLimiter.allow v.now
      let h := h.setRateLimits userId { limits with commandLimiter := commandLimiter }
      if !allowed then
        let (_, h) := h.trackAbuse v.now userId
        .refuse h db (str "Rate limit exceeded: too many commands. Slow down.") cmd.command
      else
        let cmdName := lowercase cmd.command
        match commandMap.lookup cmdName with
        | none => .refuse h db (str "Unknown command: " ++ cmdName) cmdName
        | some kind => call kind v h db cmd.args caller

end CommandHandler

end Ircord

import Mathlib.Data.Finset.Dedup
import Mathlib.Data.Finset.Erase
import Mathlib.Data.Finset.Insert
import IrcordServer.VoiceRooms
import IrcordServer.Wire

/-!
# What the members of a voice room know of it

A client keeps its own list of the participants of its room, from the messages of the manager.  When
all messages come through, that list is the room.
-/

open Container Run

namespace Ircord

/-- The contents of a message about a room. -/
inductive RoomNotice
  | joined (channelId userId : Str)
  | left (channelId userId : Str)
  | state (channelId : Str) (participants : List Str)
  deriving DecidableEq

namespace RoomNotice

def type : RoomNotice → MessageType
  | joined _ _ => .voiceRoomJoin
  | left _ _ => .voiceRoomLeave
  | state _ _ => .voiceRoomState

def payload (codec : Codec) : RoomNotice → Bytes
  | joined channelId userId => codec.voiceRoomJoin.serialize ⟨channelId, userId⟩
  | left channelId userId => codec.voiceRoomLeave.serialize ⟨channelId, userId⟩
  | state channelId participants => codec.voiceRoomState.serialize ⟨channelId, participants⟩

def channelId : RoomNotice → Str
  | joined channelId _ => channelId
  | left channelId _ => channelId
  | state channelId _ => channelId

def isState : RoomNotice → Bool
  | state _ _ => true
  | _ => false

/-- What a client makes of a message. -/
def apply (view : Finset Str) : RoomNotice → Finset Str
  | joined _ userId => insert userId view
  | left _ userId => view.erase userId
  | state _ participants => participants.toFinset

/-- What a client makes of its messages. -/
def view (notices : List RoomNotice) : Finset Str := notices.foldl apply ∅

/-- The messages from the last `VOICE_ROOM_STATE` on are about one room, and list its members. -/
def Tracks (notices : List RoomNotice) (channelId : Str) (room : Finset Str) : Prop :=
  ∃ before participants after,
    notices = before ++ .state channelId participants :: after ∧
      (∀ n ∈ after, n.isState = false ∧ n.channelId = channelId) ∧
      view (.state channelId participants :: after) = room

variable {notices : List RoomNotice} {c userId : Str} {room : Finset Str}

theorem tracks_state (notices : List RoomNotice) (c : Str) (participants : List Str) :
    Tracks (notices ++ [.state c participants]) c participants.toFinset :=
  ⟨notices, participants, [], rfl, List.forall_mem_nil _, rfl⟩

theorem Tracks.snoc (h : Tracks notices c room) {n : RoomNotice} (hstate : n.isState = false)
    (hchannel : n.channelId = c) : Tracks (notices ++ [n]) c (apply room n) := by
  obtain ⟨before, participants, after, rfl, hafter, rfl⟩ := h
  refine ⟨before, participants, after ++ [n], by simp, ?_, ?_⟩
  · exact List.forall_mem_append.2 ⟨hafter, List.forall_mem_singleton.2 ⟨hstate, hchannel⟩⟩
  · show List.foldl apply ∅ (_ :: after ++ [n]) = _
    rw [List.foldl_append]
    rfl

end RoomNotice

namespace VoiceRoomManager

variable {codec : Codec} {findSession : Str → Option SessionId} {m : VoiceRoomManager}
  {channelId userId u c : Str}

/-! ## Messages by user -/

/-- The same message to all peers. -/
def toPeers (room : UnorderedSet Str) (n : RoomNotice) : List (Str × RoomNotice) :=
  room.elems.map fun peer => (peer, n)

/-- The calls of `send_to` in the automatic leave. -/
def leaveNotices (m : VoiceRoomManager) (userId : Str) : List (Str × RoomNotice) :=
  match m.userRoom.lookup userId with
  | none => []
  | some old => toPeers ((members m.rooms old).erase userId) (.left old userId)

/-- The calls of `send_to` in `join` after that. -/
def enterNotices (room : UnorderedSet Str) (channelId userId : Str) : List (Str × RoomNotice) :=
  if room.size ≥ maxPerRoom then []
  else toPeers room (.joined channelId userId) ++
    [(userId, .state channelId (room.insert userId).elems)]

/-- The calls of `send_to` in a call. -/
def notices (codec : Codec) (m : VoiceRoomManager) (call : Call) : List (Str × RoomNotice) :=
  match call.operation with
  | .join channelId userId => leaveNotices m userId ++
    enterNotices (roomFound codec call.findSession m channelId userId) channelId userId
  | .leave channelId userId =>
    if m.userRoom.lookup userId = some channelId then leaveNotices m userId else []
  | .onDisconnect userId => leaveNotices m userId

/-- `send_to`, of each. -/
def sendNotices (codec : Codec) (findSession : Str → Option SessionId)
    (notices : List (Str × RoomNotice)) : List Action :=
  notices.flatMap fun p => sendTo findSession p.1 p.2.type (p.2.payload codec)

theorem sendToAll_eq (room : UnorderedSet Str) (n : RoomNotice) :
    sendToAll findSession room n.type (n.payload codec) =
      sendNotices codec findSession (toPeers room n) := by
  unfold sendToAll sendNotices toPeers
  rw [List.flatMap_map]

theorem actions_leaveOldRoom :
    (leaveOldRoom codec findSession m userId).2 =
      sendNotices codec findSession (leaveNotices m userId) := by
  unfold leaveNotices
  cases hroom : m.userRoom.lookup userId with
  | none =>
    rw [leaveOldRoom_of_none hroom]
    rfl
  | some old =>
    rw [leaveOldRoom_of_some hroom]
    exact sendToAll_eq _ (.left old userId)

theorem actions_join :
    (join codec findSession m channelId userId).2.2 = sendNotices codec findSession
      (leaveNotices m userId ++
        enterNotices (roomFound codec findSession m channelId userId) channelId userId) := by
  unfold enterNotices
  by_cases hfull : (roomFound codec findSession m channelId userId).size ≥ maxPerRoom
  · rw [join_of_full hfull, if_pos hfull, List.append_nil]
    exact actions_leaveOldRoom
  · rw [join_of_room hfull, if_neg hfull]
    dsimp only
    have hjoined := @sendToAll_eq codec findSession
      (roomFound codec findSession m channelId userId) (.joined channelId userId)
    rw [sendNotices, List.flatMap_append, List.flatMap_append, ← List.append_assoc]
    refine congrArg₂ _ (congrArg₂ _ actions_leaveOldRoom hjoined) ?_
    rw [List.flatMap_singleton]
    rfl

/-- A call sends these messages and no others. -/
theorem actions_perform (h : Listed m) (call : Call) :
    (perform codec m call).2 = sendNotices codec call.findSession (notices codec m call) := by
  obtain ⟨findSession, operation⟩ := call
  cases operation with
  | join channelId userId => exact actions_join
  | leave channelId userId =>
    show (leave codec findSession m channelId userId).2 = sendNotices codec findSession
      (if m.userRoom.lookup userId = some channelId then leaveNotices m userId else [])
    split_ifs with huser
    · rw [leave_of_mem h huser]
      exact actions_leaveOldRoom
    · rw [leave_of_not_mem h huser]
      rfl
  | onDisconnect userId =>
    show (onDisconnect codec findSession m userId).2 = _
    rw [onDisconnect_eq h]
    exact actions_leaveOldRoom

/-! ## The messages of one user -/

/-- The messages for a user. -/
def noticesFor (sent : List (Str × RoomNotice)) (u : Str) : List RoomNotice :=
  (sent.filter fun p => p.1 == u).map (·.2)

theorem noticesFor_append (sent sent' : List (Str × RoomNotice)) (u : Str) :
    noticesFor (sent ++ sent') u = noticesFor sent u ++ noticesFor sent' u := by
  rw [noticesFor, List.filter_append, List.map_append]
  rfl

theorem noticesFor_toPeers (room : UnorderedSet Str) (n : RoomNotice) (u : Str) :
    noticesFor (toPeers room n) u = if u ∈ room then [n] else [] := by
  have hfilter : room.elems.filter (fun peer => peer == u) = if u ∈ room then [u] else [] := by
    rw [List.filter_beq]
    by_cases hmem : u ∈ room
    · rw [List.count_eq_one_of_mem room.nodup hmem, if_pos hmem]
      rfl
    · rw [List.count_eq_zero_of_not_mem hmem, if_neg hmem]
      rfl
  unfold noticesFor toPeers
  rw [List.filter_map]
  show ((room.elems.filter fun peer => peer == u).map _).map _ = _
  rw [hfilter]
  split_ifs
  · rfl
  · rfl

/-- The members of a room. -/
def roomSet (m : VoiceRoomManager) (channelId : Str) : Finset Str :=
  (members m.rooms channelId).elems.toFinset

theorem mem_roomSet : u ∈ roomSet m c ↔ u ∈ members m.rooms c := List.mem_toFinset

/-- The automatic leave of somebody else. -/
theorem tracks_leaveOldRoom (h : Listed m) (findSession : Str → Option SessionId)
    (hu : (leaveOldRoom codec findSession m userId).1.userRoom.lookup u = some c)
    {heard : List RoomNotice} (htracks : RoomNotice.Tracks heard c (roomSet m c)) :
    RoomNotice.Tracks (heard ++ noticesFor (leaveNotices m userId) u) c
      (roomSet (leaveOldRoom codec findSession m userId).1 c) := by
  rw [lookup_leaveOldRoom] at hu
  split_ifs at hu with hne
  cases hroom : m.userRoom.lookup userId with
  | none =>
    rw [leaveOldRoom_of_none hroom, leaveNotices, hroom]
    rwa [show noticesFor [] u = [] from rfl, List.append_nil]
  | some old =>
    have hpeer : u ∈ (members m.rooms old).erase userId ↔ c = old := by
      rw [UnorderedSet.mem_erase, h.mem_iff, hu]
      exact ⟨fun h => Option.some.inj h.2, fun hc => ⟨hne, congrArg some hc⟩⟩
    rw [leaveOldRoom_of_some hroom, leaveNotices, hroom]
    dsimp only
    rw [noticesFor_toPeers]
    by_cases hc : c = old
    · rw [if_pos (hpeer.2 hc)]
      subst hc
      have hset : roomSet ⟨putGroup m.rooms c ((members m.rooms c).erase userId),
          m.userRoom.erase userId⟩ c = (roomSet m c).erase userId := by
        ext v
        rw [mem_roomSet, members_putGroup, if_pos rfl, UnorderedSet.mem_erase, Finset.mem_erase,
          mem_roomSet]
      rw [hset]
      exact htracks.snoc rfl rfl
    · rw [if_neg fun h => hc (hpeer.1 h), List.append_nil]
      have hset : roomSet ⟨putGroup m.rooms old ((members m.rooms old).erase userId),
          m.userRoom.erase userId⟩ c = roomSet m c := by
        unfold roomSet
        rw [members_putGroup, if_neg hc]
      rwa [hset]

theorem noticesFor_singleton (n : RoomNotice) (userId u : Str) :
    noticesFor [(userId, n)] u = if u = userId then [n] else [] := by
  unfold noticesFor
  by_cases hu : u = userId
  · have heq : (userId == u) = true := beq_iff_eq.2 hu.symm
    rw [if_pos hu, List.filter_cons, heq]
    rfl
  · have hne : (userId == u) = false := beq_eq_false_iff_ne.2 (Ne.symm hu)
    rw [if_neg hu, List.filter_cons, hne]
    rfl

/-- Entering a room: the user gets its state, and the others get to know. -/
theorem tracks_enter {rooms : UnorderedMap Str (UnorderedSet Str)} {userRoom : UnorderedMap Str Str}
    (h : Listed ⟨rooms, userRoom⟩) (hroom : ¬ (members rooms channelId).size ≥ maxPerRoom)
    (hu : (userRoom.insert userId channelId).lookup u = some c) {heard : List RoomNotice}
    (htracks : u ≠ userId → RoomNotice.Tracks heard c (roomSet ⟨rooms, userRoom⟩ c)) :
    RoomNotice.Tracks
      (heard ++ noticesFor (enterNotices (members rooms channelId) channelId userId) u) c
      ((members (rooms.insert channelId ((members rooms channelId).insert userId))
        c).elems.toFinset) := by
  rw [UnorderedMap.lookup_insert_ite] at hu
  rw [enterNotices, if_neg hroom, noticesFor_append, noticesFor_toPeers, noticesFor_singleton,
    members_insert]
  by_cases huser : u = userId
  · rw [if_pos huser] at hu
    cases hu
    rw [if_pos huser, if_pos rfl, ← List.append_assoc]
    exact RoomNotice.tracks_state _ _ _
  · rw [if_neg huser] at hu
    have hpeer : u ∈ members rooms channelId ↔ c = channelId := by
      rw [h.mem_iff]
      exact ⟨fun e => Option.some.inj (hu.symm.trans e), fun hc => hc ▸ hu⟩
    rw [if_neg huser, List.append_nil]
    by_cases hc : c = channelId
    · rw [if_pos (hpeer.2 hc), if_pos hc]
      subst hc
      have hset : ((members rooms c).insert userId).elems.toFinset =
          insert userId (roomSet ⟨rooms, userRoom⟩ c) := by
        ext v
        rw [List.mem_toFinset, Finset.mem_insert, mem_roomSet]
        exact UnorderedSet.mem_insert
      rw [hset]
      exact (htracks huser).snoc rfl rfl
    · rw [if_neg fun h => hc (hpeer.1 h), if_neg hc, List.append_nil]
      exact htracks huser

theorem tracks_join (h : Listed m)
    (hu : (join codec findSession m channelId userId).2.1.userRoom.lookup u = some c)
    {heard : List RoomNotice}
    (htracks : m.userRoom.lookup u = some c → RoomNotice.Tracks heard c (roomSet m c)) :
    RoomNotice.Tracks (heard ++ noticesFor (leaveNotices m userId ++
        enterNotices (roomFound codec findSession m channelId userId) channelId userId) u) c
      (roomSet (join codec findSession m channelId userId).2.1 c) := by
  have hleft : Listed (leaveOldRoom codec findSession m userId).1 := listed_leaveOldRoom h
  have hbefore (hu : (leaveOldRoom codec findSession m userId).1.userRoom.lookup u = some c) :
      RoomNotice.Tracks (heard ++ noticesFor (leaveNotices m userId) u) c
        (roomSet (leaveOldRoom codec findSession m userId).1 c) := by
    refine tracks_leaveOldRoom h findSession hu (htracks ?_)
    rw [lookup_leaveOldRoom] at hu
    split_ifs at hu
    exact hu
  rw [noticesFor_append, ← List.append_assoc]
  by_cases hfull : (roomFound codec findSession m channelId userId).size ≥ maxPerRoom
  · rw [join_of_full hfull] at hu ⊢
    have hset : members ((leaveOldRoom codec findSession m userId).1.rooms.insert channelId
        (roomFound codec findSession m channelId userId)) c =
          members (leaveOldRoom codec findSession m userId).1.rooms c := by
      rw [members_insert]
      split_ifs with hc
      · rw [hc]
        rfl
      · rfl
    rw [enterNotices, if_pos hfull, show noticesFor [] u = [] from rfl, List.append_nil, roomSet,
      hset]
    exact hbefore hu
  · rw [join_of_room hfull] at hu ⊢
    have hset : members (((leaveOldRoom codec findSession m userId).1.rooms.insert channelId
        (roomFound codec findSession m channelId userId)).insert channelId
          ((roomFound codec findSession m channelId userId).insert userId)) c =
        members ((leaveOldRoom codec findSession m userId).1.rooms.insert channelId
          ((roomFound codec findSession m channelId userId).insert userId)) c := by
      rw [members_insert, members_insert, members_insert]
      split_ifs <;> rfl
    rw [roomSet, hset]
    refine tracks_enter hleft hfull hu fun huser => hbefore ?_
    rw [UnorderedMap.lookup_insert_ite, if_neg huser] at hu
    exact hu

/-- A call is a join, the automatic leave, or nothing. -/
theorem step_cases (codec : Codec) (h : Listed m) (call : Call) :
    (∃ channelId userId,
      step codec m call = (join codec call.findSession m channelId userId).2.1 ∧
        notices codec m call = leaveNotices m userId ++
          enterNotices (roomFound codec call.findSession m channelId userId) channelId userId) ∨
    (∃ userId, step codec m call = (leaveOldRoom codec call.findSession m userId).1 ∧
      notices codec m call = leaveNotices m userId) ∨
    (step codec m call = m ∧ notices codec m call = []) := by
  obtain ⟨findSession, operation⟩ := call
  cases operation with
  | join channelId userId => exact Or.inl ⟨channelId, userId, rfl, rfl⟩
  | leave channelId userId =>
    by_cases huser : m.userRoom.lookup userId = some channelId
    · exact Or.inr (Or.inl ⟨userId, congrArg Prod.fst (leave_of_mem h huser), if_pos huser⟩)
    · exact Or.inr (Or.inr ⟨congrArg Prod.fst (leave_of_not_mem h huser), if_neg huser⟩)
  | onDisconnect userId =>
    exact Or.inr (Or.inl ⟨userId, congrArg Prod.fst (onDisconnect_eq h), rfl⟩)

/-! ## Runs -/

/-- The messages of a call that go to a session. -/
def delivered (codec : Codec) (m : VoiceRoomManager) (call : Call) : List (Str × RoomNotice) :=
  (notices codec m call).filter fun p => (call.findSession p.1).isSome

theorem sendNotices_delivered (m : VoiceRoomManager) (call : Call) :
    sendNotices codec call.findSession (delivered codec m call) =
      sendNotices codec call.findSession (notices codec m call) := by
  unfold sendNotices delivered
  induction notices codec m call with
  | nil => rfl
  | cons p ps ih =>
    rw [List.filter_cons, List.flatMap_cons, ← ih]
    cases hsession : call.findSession p.1 with
    | none =>
      rw [sendTo, hsession]
      rfl
    | some session => rw [Option.isSome_some, if_pos rfl, List.flatMap_cons]

theorem noticesFor_delivered {call : Call} (h : (call.findSession u).isSome = true) :
    noticesFor (delivered codec m call) u = noticesFor (notices codec m call) u := by
  unfold noticesFor delivered
  rw [List.filter_filter]
  refine congrArg _ (List.filter_congr fun p _ => ?_)
  cases hp : p.1 == u with
  | false => rfl
  | true => rw [beq_iff_eq.1 hp, h]; rfl

/-- The manager, with the messages sent so far and the users they went to. -/
structure Heard where
  manager : VoiceRoomManager
  log : List (Str × RoomNotice)

namespace Heard

def start : Heard := ⟨empty, []⟩

def step (codec : Codec) (h : Heard) (call : Call) : Heard :=
  ⟨VoiceRoomManager.step codec h.manager call, h.log ++ delivered codec h.manager call⟩

/-- The messages sent to a user, in order. -/
def inbox (h : Heard) (u : Str) : List RoomNotice := noticesFor h.log u

/-- There is a session for everybody who is in a room when the messages of the call are sent. -/
def FindsMembers (codec : Codec) (h : Heard) (call : Call) : Prop :=
  ∀ u ∈ (VoiceRoomManager.step codec h.manager call).userRoom.keys,
    (call.findSession u).isSome = true

instance (codec : Codec) (h : Heard) (call : Call) : Decidable (FindsMembers codec h call) :=
  inferInstanceAs (Decidable (∀ u ∈ _, _))

/-- The log grows by what the call sends. -/
def LogsSends (codec : Codec) (h : Heard) (call : Call) : Prop :=
  ∃ sent, (step codec h call).log = h.log ++ sent ∧
    (∀ p ∈ sent, (call.findSession p.1).isSome = true) ∧
    (perform codec h.manager call).2 = sendNotices codec call.findSession sent

/-- Every member of a room sees the room. -/
def Agrees (h : Heard) : Prop :=
  ∀ u c, u ∈ members h.manager.rooms c → RoomNotice.Tracks (h.inbox u) c (roomSet h.manager c)

theorem logsSends (h : Heard) (hlisted : Listed h.manager) (call : Call) :
    LogsSends codec h call := by
  refine ⟨delivered codec h.manager call, rfl, fun p hp => (List.mem_filter.1 hp).2, ?_⟩
  rw [sendNotices_delivered]
  exact actions_perform hlisted call

theorem agrees_step {h : Heard} (hlisted : Listed h.manager) (h₀ : Agrees h) {call : Call}
    (hfinds : FindsMembers codec h call) : Agrees (step codec h call) := by
  have hlisted' : Listed (VoiceRoomManager.step codec h.manager call) :=
    listed_step codec call hlisted
  intro u c hmem
  have hu : (VoiceRoomManager.step codec h.manager call).userRoom.lookup u = some c :=
    (hlisted'.mem_iff u c).1 hmem
  have hsession := hfinds u (AList.mem_keys.1 (UnorderedMap.mem_iff_lookup.2 ⟨c, hu⟩))
  have hbefore (hroom : h.manager.userRoom.lookup u = some c) :
      RoomNotice.Tracks (h.inbox u) c (roomSet h.manager c) :=
    h₀ u c ((hlisted.mem_iff u c).2 hroom)
  rw [inbox, step, noticesFor_append, noticesFor_delivered hsession]
  show RoomNotice.Tracks (h.inbox u ++ noticesFor (notices codec h.manager call) u) c
    (roomSet (VoiceRoomManager.step codec h.manager call) c)
  obtain ⟨channelId, userId, hstep, hnotices⟩ | ⟨userId, hstep, hnotices⟩ | ⟨hstep, hnotices⟩ :=
    step_cases codec hlisted call
  · rw [hstep] at hu ⊢
    rw [hnotices]
    exact tracks_join hlisted hu hbefore
  · rw [hstep] at hu ⊢
    rw [hnotices]
    refine tracks_leaveOldRoom hlisted call.findSession hu (hbefore ?_)
    rw [lookup_leaveOldRoom] at hu
    split_ifs at hu
    exact hu
  · rw [hstep] at hu ⊢
    rw [hnotices, show noticesFor [] u = [] from rfl, List.append_nil]
    exact hbefore hu

/-- As long as there is a session for every member of a room, each sees his room as it is. -/
theorem members_see_rooms (codec : Codec) (calls : List Call)
    (h : AllSteps (step codec) (FindsMembers codec) start calls) :
    AllStates (step codec) Agrees start calls ∧
      AllSteps (step codec) (LogsSends codec) start calls := by
  have hempty : Listed empty := roster_empty maxPerRoom
  have hboth : AllStates (step codec) (fun h => Listed h.manager ∧ Agrees h) start calls := by
    refine .of_steps ⟨hempty, ?_⟩ ?_ h
    · intro u c hu
      exact absurd hu (UnorderedSet.not_mem_empty u)
    · rintro h call ⟨hlisted, hagrees⟩ hfinds
      exact ⟨listed_step codec call hlisted, agrees_step hlisted hagrees hfinds⟩
  exact ⟨hboth.mono fun _ h => h.2, hboth.toSteps fun h call hh => logsSends h hh.1 call⟩

/-- Two users who have sessions. -/
def findTwo (u : Str) : Option SessionId :=
  if u = str "alice" then some 0 else if u = str "bob" then some 1 else none

/-- Both join, one joins another room, and is gone; the other joins his room again and leaves. -/
def twoMembers : List Call :=
  [⟨findTwo, .join (str "lobby") (str "alice")⟩, ⟨findTwo, .join (str "lobby") (str "bob")⟩,
    ⟨findTwo, .join (str "den") (str "alice")⟩, ⟨findTwo, .onDisconnect (str "alice")⟩,
    ⟨findTwo, .join (str "lobby") (str "bob")⟩, ⟨findTwo, .leave (str "lobby") (str "bob")⟩]

theorem members_see_rooms_twoMembers :
    AllStates (step Codec.proto3) Agrees start twoMembers ∧
      AllSteps (step Codec.proto3) (LogsSends Codec.proto3) start twoMembers :=
  members_see_rooms Codec.proto3 twoMembers (by decide +kernel)

end Heard

end VoiceRoomManager

end Ircord

import IrcordServer.Action
import IrcordServer.Container

/-!
# Voice rooms

`voice/voice_room_manager.cpp`.  An operation returns the rooms afterwards and the messages it
sends, each to the session found for a user; the order in which the peers of a room are visited is
left open.
-/

open Container

namespace Ircord

structure VoiceRoomManager where
  rooms : UnorderedMap Str (UnorderedSet Str)
  userRoom : UnorderedMap Str Str

namespace VoiceRoomManager

def empty : VoiceRoomManager := ⟨∅, ∅⟩

/-- `kMaxPerRoom`. -/
def maxPerRoom : ℕ := 8

variable (codec : Codec) (findSession : Str → Option SessionId) (m : VoiceRoomManager)

/-- `send_to`: nothing is sent to a user without a session. -/
def sendTo (userId : Str) (type : MessageType) (payload : Bytes) : List Action :=
  (findSession userId).toList.map fun session => .send session ⟨0, 0, type, payload⟩

/-- `send_to` each of the peers. -/
def sendToAll (room : UnorderedSet Str) (type : MessageType) (payload : Bytes) : List Action :=
  room.elems.flatMap fun peer => sendTo findSession peer type payload

/-- The rooms with one of them replaced, or dropped when nobody is in it. -/
def setRoom (channelId : Str) (room : UnorderedSet Str) : UnorderedMap Str (UnorderedSet Str) :=
  if room.size = 0 then m.rooms.erase channelId else m.rooms.insert channelId room

/-- The automatic leave in `join`. -/
def leaveOldRoom (userId : Str) : VoiceRoomManager × List Action :=
  match m.userRoom.lookup userId with
  | none => (m, [])
  | some old =>
    let oldRoom := ((m.rooms.lookup old).getD ∅).erase userId
    let leave := codec.voiceRoomLeave.serialize ⟨old, userId⟩
    (⟨m.setRoom old oldRoom, m.userRoom.erase userId⟩,
      sendToAll findSession oldRoom .voiceRoomLeave leave)

/-- `join`: the error text, empty on success. -/
def join (channelId userId : Str) : Str × VoiceRoomManager × List Action :=
  let (m, left) := leaveOldRoom codec findSession m userId
  let room := (m.rooms.lookup channelId).getD ∅
  let m := { m with rooms := m.rooms.insert channelId room }
  if room.size ≥ maxPerRoom then
    (str "Voice room is full (max " ++ toStr maxPerRoom ++ str ")", m, left)
  else
    let joined :=
      sendToAll findSession room .voiceRoomJoin (codec.voiceRoomJoin.serialize ⟨channelId, userId⟩)
    let room := room.insert userId
    let state :=
      sendTo findSession userId .voiceRoomState
        (codec.voiceRoomState.serialize ⟨channelId, room.elems⟩)
    ([], ⟨m.rooms.insert channelId room, m.userRoom.insert userId channelId⟩,
      left ++ joined ++ state)

def leave (channelId userId : Str) : VoiceRoomManager × List Action :=
  match m.rooms.lookup channelId with
  | none => (m, [])
  | some room =>
    if userId ∉ room then (m, [])
    else
      let room := room.erase userId
      (⟨m.setRoom channelId room, m.userRoom.erase userId⟩,
        sendToAll findSession room .voiceRoomLeave
          (codec.voiceRoomLeave.serialize ⟨channelId, userId⟩))

def onDisconnect (userId : Str) : VoiceRoomManager × List Action :=
  match m.userRoom.lookup userId with
  | none => (m, [])
  | some channelId =>
    let userRoom := m.userRoom.erase userId
    match m.rooms.lookup channelId with
    | none => (⟨m.rooms, userRoom⟩, [])
    | some room =>
      let room := room.erase userId
      (⟨m.setRoom channelId room, userRoom⟩,
        sendToAll findSession room .voiceRoomLeave
          (codec.voiceRoomLeave.serialize ⟨channelId, userId⟩))

def participants (channelId : Str) : List Str :=
  match m.rooms.lookup channelId with
  | none => []
  | some room => room.elems

def isInVoice (userId : Str) : Bool := userId ∈ m.userRoom

/-! ## The messages -/

/-- A message about a voice room, to a session that is found for some user. -/
inductive RoomMessage : Action → Prop
  | send (session : SessionId) (type : MessageType) (payload : Bytes)
      (found : Found findSession session)
      (kind : type ∈ [.voiceRoomJoin, .voiceRoomLeave, .voiceRoomState]) :
      RoomMessage (.send session ⟨0, 0, type, payload⟩)

theorem about_of_roomMessage {actions : List Action}
    (h : ∀ a ∈ actions, RoomMessage findSession a) :
    Action.About (Found findSession) actions := by
  intro a ha
  cases h a ha with
  | send session type payload found kind => exact found

section Messages

variable {type : MessageType} (kind : type ∈ [.voiceRoomJoin, .voiceRoomLeave, .voiceRoomState])

include kind in
theorem roomMessage_sendTo (userId : Str) (payload : Bytes) :
    ∀ a ∈ sendTo findSession userId type payload, RoomMessage findSession a := by
  intro a ha
  obtain ⟨session, hsession, rfl⟩ := List.mem_map.1 ha
  exact .send session type payload ⟨userId, Option.mem_toList.1 hsession⟩ kind

include kind in
theorem roomMessage_sendToAll (room : UnorderedSet Str) (payload : Bytes) :
    ∀ a ∈ sendToAll findSession room type payload, RoomMessage findSession a := by
  intro a ha
  obtain ⟨peer, -, ha⟩ := List.mem_flatMap.1 ha
  exact roomMessage_sendTo findSession kind peer payload a ha

end Messages

theorem roomMessage_leaveOldRoom (userId : Str) :
    ∀ a ∈ (leaveOldRoom codec findSession m userId).2, RoomMessage findSession a := by
  unfold leaveOldRoom
  split
  · exact List.forall_mem_nil _
  · exact roomMessage_sendToAll findSession (by decide) _ _

theorem roomMessage_join (channelId userId : Str) :
    ∀ a ∈ (join codec findSession m channelId userId).2.2, RoomMessage findSession a := by
  have hold := roomMessage_leaveOldRoom codec findSession m userId
  unfold join
  dsimp only
  split_ifs
  · exact hold
  · exact List.forall_mem_append.2 ⟨List.forall_mem_append.2
      ⟨hold, roomMessage_sendToAll findSession (by decide) _ _⟩,
      roomMessage_sendTo findSession (by decide) _ _⟩

theorem roomMessage_leave (channelId userId : Str) :
    ∀ a ∈ (leave codec findSession m channelId userId).2, RoomMessage findSession a := by
  unfold leave
  split
  · exact List.forall_mem_nil _
  · split_ifs
    · exact roomMessage_sendToAll findSession (by decide) _ _
    · exact List.forall_mem_nil _

theorem roomMessage_onDisconnect (userId : Str) :
    ∀ a ∈ (onDisconnect codec findSession m userId).2, RoomMessage findSession a := by
  unfold onDisconnect
  split
  · exact List.forall_mem_nil _
  · split
    · exact List.forall_mem_nil _
    · exact roomMessage_sendToAll findSession (by decide) _ _

end VoiceRoomManager

end Ircord

import IrcordServer.Roster
import IrcordServer.Run
import IrcordServer.VoiceRoomManager
import IrcordServer.Wire

/-!
# Who is in which voice room

The two maps of the manager agree after every operation.  All operations are made of two: a user
leaves the room he is in (`leaveOldRoom`), or enters one while he is in none.
-/

open Container Run

namespace Ircord

namespace VoiceRoomManager

inductive Operation
  | join (channelId userId : Str)
  | leave (channelId userId : Str)
  | onDisconnect (userId : Str)

/-- An operation with the sessions that `find_session` finds meanwhile. -/
structure Call where
  findSession : Str → Option SessionId
  operation : Operation

variable {codec : Codec} {findSession : Str → Option SessionId} {m : VoiceRoomManager}
  {channelId userId : Str}

/-- The manager after a call, with what it sends. -/
def perform (codec : Codec) (m : VoiceRoomManager) (call : Call) :
    VoiceRoomManager × List Action :=
  match call.operation with
  | .join channelId userId => (join codec call.findSession m channelId userId).2
  | .leave channelId userId => leave codec call.findSession m channelId userId
  | .onDisconnect userId => onDisconnect codec call.findSession m userId

def step (codec : Codec) (m : VoiceRoomManager) (call : Call) : VoiceRoomManager :=
  (perform codec m call).1

/-- A user is in the room that the other map has for him, and in no other.  No room is empty, and
none has more than eight members. -/
structure Consistent (m : VoiceRoomManager) : Prop where
  mem_iff : ∀ userId channelId,
    (∃ room, m.rooms.lookup channelId = some room ∧ userId ∈ room) ↔
      m.userRoom.lookup userId = some channelId
  unique : ∀ userId channelId channelId', userId ∈ m.participants channelId →
    userId ∈ m.participants channelId' → channelId = channelId'
  isInVoice_iff : ∀ userId,
    m.isInVoice userId = true ↔ ∃! channelId, userId ∈ m.participants channelId
  nonempty : ∀ channelId room, m.rooms.lookup channelId = some room → room.size ≠ 0
  bounded : ∀ channelId room, m.rooms.lookup channelId = some room → room.size ≤ maxPerRoom

/-- The maps as a roster. -/
abbrev Listed (m : VoiceRoomManager) : Prop := Roster maxPerRoom m.rooms m.userRoom

theorem participants_eq (m : VoiceRoomManager) (channelId : Str) :
    m.participants channelId = (members m.rooms channelId).elems := by
  unfold participants members
  split
  · rename_i hnone
    rw [hnone]
    rfl
  · rename_i room hroom
    rw [hroom]
    rfl

theorem consistent_of_listed (h : Listed m) : Consistent m := by
  have hmem (userId channelId : Str) :
      userId ∈ m.participants channelId ↔ m.userRoom.lookup userId = some channelId := by
    rw [participants_eq]
    exact h.mem_iff userId channelId
  exact
    { mem_iff := fun userId channelId => by
        rw [← h.mem_iff]
        constructor
        · rintro ⟨room, hroom, hmem⟩
          rwa [members_of_lookup hroom]
        · intro hmem
          exact ⟨_, lookup_of_mem hmem, hmem⟩
      unique := fun userId channelId channelId' hc hc' =>
        Option.some.inj (((hmem _ _).1 hc).symm.trans ((hmem _ _).1 hc'))
      isInVoice_iff := fun userId => by
        unfold isInVoice
        rw [decide_eq_true_iff, UnorderedMap.mem_iff_lookup]
        simp only [hmem]
        constructor
        · rintro ⟨channelId, hc⟩
          exact ⟨channelId, hc, fun _ hc' => Option.some.inj (hc'.symm.trans hc)⟩
        · rintro ⟨channelId, hc, -⟩
          exact ⟨channelId, hc⟩
      nonempty := h.nonempty
      bounded := fun channelId room hroom => by
        rw [← members_of_lookup hroom]
        exact h.size_le channelId }

/-! ## Leaving -/

theorem leaveOldRoom_of_none (h : m.userRoom.lookup userId = none) :
    leaveOldRoom codec findSession m userId = (m, []) := by
  unfold leaveOldRoom
  rw [h]

theorem leaveOldRoom_of_some (h : m.userRoom.lookup userId = some channelId) :
    leaveOldRoom codec findSession m userId =
      (⟨putGroup m.rooms channelId ((members m.rooms channelId).erase userId),
          m.userRoom.erase userId⟩,
        sendToAll findSession ((members m.rooms channelId).erase userId) .voiceRoomLeave
          (codec.voiceRoomLeave.serialize ⟨channelId, userId⟩)) := by
  unfold leaveOldRoom
  rw [h]
  rfl

/-- The user is in no room afterwards. -/
theorem lookup_leaveOldRoom (codec : Codec) (findSession : Str → Option SessionId)
    (m : VoiceRoomManager) (userId u : Str) :
    (leaveOldRoom codec findSession m userId).1.userRoom.lookup u =
      if u = userId then none else m.userRoom.lookup u := by
  cases hroom : m.userRoom.lookup userId with
  | none =>
    rw [leaveOldRoom_of_none hroom]
    split_ifs with hu
    · rw [hu, hroom]
    · rfl
  | some channelId =>
    rw [leaveOldRoom_of_some hroom]
    exact UnorderedMap.lookup_erase_ite _ _ _

theorem listed_leaveOldRoom (h : Listed m) :
    Listed (leaveOldRoom codec findSession m userId).1 := by
  cases hroom : m.userRoom.lookup userId with
  | none => rwa [leaveOldRoom_of_none hroom]
  | some channelId =>
    rw [leaveOldRoom_of_some hroom]
    exact h.erase hroom

/-- `leave` is the automatic leave when the user is in that room. -/
theorem leave_of_mem (h : Listed m) (huser : m.userRoom.lookup userId = some channelId) :
    leave codec findSession m channelId userId = leaveOldRoom codec findSession m userId := by
  have hmem := (h.mem_iff _ _).2 huser
  rw [leaveOldRoom_of_some huser]
  unfold leave
  rw [lookup_of_mem hmem]
  dsimp only
  rw [if_neg (not_not.2 hmem)]
  rfl

theorem leave_of_not_mem (h : Listed m) (huser : m.userRoom.lookup userId ≠ some channelId) :
    leave codec findSession m channelId userId = (m, []) := by
  unfold leave
  split
  · rfl
  · rename_i room hroom
    rw [Ne, ← h.mem_iff, members_of_lookup hroom] at huser
    rw [if_pos huser]

theorem onDisconnect_eq (h : Listed m) :
    onDisconnect codec findSession m userId = leaveOldRoom codec findSession m userId := by
  unfold onDisconnect
  cases huser : m.userRoom.lookup userId with
  | none => rw [leaveOldRoom_of_none huser]
  | some channelId =>
    have hroom := lookup_of_mem ((h.mem_iff _ _).2 huser)
    rw [leaveOldRoom_of_some huser]
    dsimp only
    rw [hroom]
    rfl

/-! ## Joining -/

/-- The room that `join` finds when the user has left his own. -/
def roomFound (codec : Codec) (findSession : Str → Option SessionId) (m : VoiceRoomManager)
    (channelId userId : Str) : UnorderedSet Str :=
  members (leaveOldRoom codec findSession m userId).1.rooms channelId

/-- A full room is looked up only. -/
theorem join_of_full
    (hfull : (roomFound codec findSession m channelId userId).size ≥ maxPerRoom) :
    (join codec findSession m channelId userId).2 =
      (⟨(leaveOldRoom codec findSession m userId).1.rooms.insert channelId
          (roomFound codec findSession m channelId userId),
        (leaveOldRoom codec findSession m userId).1.userRoom⟩,
        (leaveOldRoom codec findSession m userId).2) := by
  unfold join
  exact congrArg Prod.snd (if_pos hfull)

theorem join_of_room
    (hroom : ¬ (roomFound codec findSession m channelId userId).size ≥ maxPerRoom) :
    (join codec findSession m channelId userId).2 =
      (⟨((leaveOldRoom codec findSession m userId).1.rooms.insert channelId
            (roomFound codec findSession m channelId userId)).insert channelId
          ((roomFound codec findSession m channelId userId).insert userId),
        (leaveOldRoom codec findSession m userId).1.userRoom.insert userId channelId⟩,
        (leaveOldRoom codec findSession m userId).2 ++
          sendToAll findSession (roomFound codec findSession m channelId userId) .voiceRoomJoin
            (codec.voiceRoomJoin.serialize ⟨channelId, userId⟩) ++
          sendTo findSession userId .voiceRoomState (codec.voiceRoomState.serialize ⟨channelId,
            ((roomFound codec findSession m channelId userId).insert userId).elems⟩)) := by
  unfold join
  exact congrArg Prod.snd (if_neg hroom)

/-- Nobody has entered or left it, but for the user. -/
theorem roomFound_size (h : Listed m) :
    (roomFound codec findSession m channelId userId).size =
      ((members m.rooms channelId).erase userId).size := by
  unfold roomFound
  cases hroom : m.userRoom.lookup userId with
  | none =>
    have hnot : userId ∉ members m.rooms channelId := by
      rw [h.mem_iff, hroom]
      exact (Option.some_ne_none _).symm
    rw [leaveOldRoom_of_none hroom, UnorderedSet.erase_of_notMem hnot]
  | some old =>
    rw [leaveOldRoom_of_some hroom, members_putGroup]
    split_ifs with hc
    · rw [hc]
    · have hnot : userId ∉ members m.rooms channelId := by
        rw [h.mem_iff, hroom]
        exact fun e => hc (Option.some.inj e).symm
      rw [UnorderedSet.erase_of_notMem hnot]

/-- Where everybody is after a join. -/
theorem lookup_join (h : Listed m) (u : Str) :
    (join codec findSession m channelId userId).2.1.userRoom.lookup u =
      if u = userId then
        if ((members m.rooms channelId).erase userId).size < maxPerRoom then some channelId
        else none
      else m.userRoom.lookup u := by
  rw [← @roomFound_size codec findSession m channelId userId h]
  by_cases hfull : (roomFound codec findSession m channelId userId).size ≥ maxPerRoom
  · rw [join_of_full hfull, if_neg (not_lt.2 hfull)]
    exact lookup_leaveOldRoom codec findSession m userId u
  · rw [join_of_room hfull, if_pos (not_le.1 hfull), UnorderedMap.lookup_insert_ite,
      lookup_leaveOldRoom]
    split_ifs <;> rfl

theorem lookup_onDisconnect (h : Listed m) (u : Str) :
    (onDisconnect codec findSession m userId).1.userRoom.lookup u =
      if u = userId then none else m.userRoom.lookup u := by
  rw [onDisconnect_eq h]
  exact lookup_leaveOldRoom codec findSession m userId u

/-- Nobody is anywhere he was not before somebody left. -/
theorem lookup_of_leave (h : Listed m) {u c : Str}
    (hu : (leave codec findSession m channelId userId).1.userRoom.lookup u = some c) :
    m.userRoom.lookup u = some c := by
  by_cases huser : m.userRoom.lookup userId = some channelId
  · rw [leave_of_mem h huser, lookup_leaveOldRoom] at hu
    split_ifs at hu
    exact hu
  · rw [leave_of_not_mem h huser] at hu
    exact hu

/-- A room that is looked up is as it was, when it has somebody in it. -/
theorem lookup_insert_members {rooms : UnorderedMap Str (UnorderedSet Str)}
    (h : (members rooms channelId).size ≠ 0) (c : Str) :
    (rooms.insert channelId (members rooms channelId)).lookup c = rooms.lookup c := by
  rw [UnorderedMap.lookup_insert_ite]
  split_ifs with hc
  · have hmem : ∃ u, u ∈ members rooms channelId := by
      by_contra hnone
      exact h (UnorderedSet.size_eq_zero_iff.2 fun u hu => hnone ⟨u, hu⟩)
    rw [hc, lookup_of_mem hmem.choose_spec]
  · rfl

theorem listed_join (h : Listed m) : Listed (join codec findSession m channelId userId).2.1 := by
  have hleft : Listed (leaveOldRoom codec findSession m userId).1 := listed_leaveOldRoom h
  by_cases hfull : (roomFound codec findSession m channelId userId).size ≥ maxPerRoom
  · rw [join_of_full hfull]
    refine hleft.congr (lookup_insert_members fun hsize => ?_)
    rw [roomFound, hsize] at hfull
    exact absurd hfull (by decide)
  · rw [join_of_room hfull]
    have hnone : (leaveOldRoom codec findSession m userId).1.userRoom.lookup userId = none := by
      rw [lookup_leaveOldRoom, if_pos rfl]
    refine (hleft.insert (c := channelId) hnone (not_le.1 hfull)).congr fun c => ?_
    simp only [UnorderedMap.lookup_insert_ite]
    split_ifs <;> rfl

/-! ## Runs -/

theorem listed_leave (h : Listed m) : Listed (leave codec findSession m channelId userId).1 := by
  by_cases huser : m.userRoom.lookup userId = some channelId
  · rw [leave_of_mem h huser]
    exact listed_leaveOldRoom h
  · rw [leave_of_not_mem h huser]
    exact h

theorem listed_onDisconnect (h : Listed m) :
    Listed (onDisconnect codec findSession m userId).1 := by
  rw [onDisconnect_eq h]
  exact listed_leaveOldRoom h

theorem listed_step (codec : Codec) (call : Call) (h : Listed m) : Listed (step codec m call) := by
  unfold step perform
  split
  · exact listed_join h
  · exact listed_leave h
  · exact listed_onDisconnect h

theorem listed_run (codec : Codec) (calls : List Call) :
    AllStates (step codec) Listed empty calls := by
  have hempty : Listed empty := roster_empty maxPerRoom
  exact .of_invariant hempty (fun _ call h => listed_step codec call h) calls

/-- The manager is consistent after any sequence of calls. -/
theorem rooms_consistent (codec : Codec) (calls : List Call) :
    AllStates (step codec) Consistent empty calls :=
  (listed_run codec calls).mono fun _ h => consistent_of_listed h

/-! ## Refused joins -/

/-- Two managers have the same rooms with the same members. -/
structure SameRooms (m m' : VoiceRoomManager) : Prop where
  rooms : ∀ channelId, m'.rooms.lookup channelId = m.rooms.lookup channelId
  userRoom : ∀ userId, m'.userRoom.lookup userId = m.userRoom.lookup userId

/-- `join` returns an error if the room is full once the user has left his own. -/
theorem full_of_join_ne_nil (h : (join codec findSession m channelId userId).1 ≠ []) :
    (roomFound codec findSession m channelId userId).size ≥ maxPerRoom := by
  by_contra hroom
  refine h ?_
  unfold join
  exact congrArg Prod.fst (if_neg hroom)

/-- A refused join changes no room and tells nobody anything exactly if the user was in no room: the
automatic leave comes before the room is found to be full. -/
theorem refused_join_keeps_iff (hrefused : (join codec findSession m channelId userId).1 ≠ []) :
    SameRooms m (join codec findSession m channelId userId).2.1 ∧
        (join codec findSession m channelId userId).2.2 = [] ↔
      m.userRoom.lookup userId = none := by
  have hfull := full_of_join_ne_nil hrefused
  rw [join_of_full hfull]
  constructor
  · rintro ⟨hsame, -⟩
    rw [← hsame.userRoom userId, lookup_leaveOldRoom, if_pos rfl]
  · intro hnone
    have hfound : roomFound codec findSession m channelId userId = members m.rooms channelId := by
      unfold roomFound
      rw [leaveOldRoom_of_none hnone]
    rw [hfound] at hfull ⊢
    rw [leaveOldRoom_of_none hnone]
    refine ⟨⟨lookup_insert_members fun hsize => ?_, fun _ => rfl⟩, rfl⟩
    rw [hsize] at hfull
    exact absurd hfull (by decide)

/-- Eleven users, in the order of their sessions. -/
def guests : List Str := (List.range 8).map toStr ++ [str "alice", str "bob", str "carol"]

/-- The first eight join the room `full`; `alice` and `bob` join the room `lounge`. -/
def fullRoomCalls : List Call :=
  ((List.range 8).map fun n => ⟨guests.idxOf?, .join (str "full") (toStr n)⟩) ++
    [⟨guests.idxOf?, .join (str "lounge") (str "alice")⟩,
      ⟨guests.idxOf?, .join (str "lounge") (str "bob")⟩]

theorem refused_join_keeps_iff_carol :
    SameRooms (final (step .proto3) empty fullRoomCalls) (join .proto3 guests.idxOf?
          (final (step .proto3) empty fullRoomCalls) (str "full") (str "carol")).2.1 ∧
        (join .proto3 guests.idxOf? (final (step .proto3) empty fullRoomCalls) (str "full")
          (str "carol")).2.2 = [] ↔
      (final (step .proto3) empty fullRoomCalls).userRoom.lookup (str "carol") = none :=
  refused_join_keeps_iff (by decide +kernel)

/-- `alice` wants to change to the full room: she is refused, and out of the lounge. -/
theorem not_sameRooms_fullRoom :
    (join .proto3 guests.idxOf? (final (step .proto3) empty fullRoomCalls) (str "full")
        (str "alice")).1 ≠ [] ∧
      ¬ SameRooms (final (step .proto3) empty fullRoomCalls) (join .proto3 guests.idxOf?
        (final (step .proto3) empty fullRoomCalls) (str "full") (str "alice")).2.1 ∧
      (join .proto3 guests.idxOf? (final (step .proto3) empty fullRoomCalls) (str "full")
        (str "alice")).2.2 ≠ [] := by
  refine ⟨by decide +kernel, fun hsame => ?_, by decide +kernel⟩
  have hroom := hsame.userRoom (str "alice")
  exact absurd hroom (by decide +kernel)

end VoiceRoomManager

end Ircord

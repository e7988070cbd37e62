import IrcordServer.Commands.Authority
import IrcordServer.Net.Teardown

/-!
# Channel messages

Who is in a channel, and who may speak there, is known to the command handler only.  A chat message
to a channel goes through `Listener::broadcast`, which asks nobody: it reaches every registered
session but the sender's.
-/

open Container Run

namespace Ircord

namespace CommandHandler

/-- The user is in the channel and, where the channel is moderated, an operator or voiced. -/
def MaySpeak (h : CommandHandler) (name u : Str) : Prop :=
  ∃ chan, h.channels.lookup name = some chan ∧ u ∈ chan.members ∧
    (chan.moderated = true → u ∈ chan.operators ∨ u ∈ chan.voiced)

end CommandHandler

open CommandHandler

namespace Server

/-! ## What a broadcast writes -/

section Broadcast

variable (sv : Server) (env : Envelope) (exclude : Option SessionId)

/-- The sessions that `broadcast` writes to. -/
def broadcastTargets : List SessionId :=
  (sv.sessionsByUser.entries.map (·.2)).filter fun s => some s != exclude

theorem mem_broadcastTargets {t : SessionId} :
    t ∈ sv.broadcastTargets exclude ↔
      (∃ u, sv.findSession u = some t) ∧ some t ≠ exclude := by
  unfold broadcastTargets
  rw [List.mem_filter, bne_iff_ne]
  refine and_congr_left fun _ => ?_
  constructor
  · intro ht
    obtain ⟨e, he, rfl⟩ := List.mem_map.1 ht
    exact ⟨e.1, UnorderedMap.lookup_eq_some_of_mem_entries he⟩
  · rintro ⟨u, hu⟩
    exact List.mem_map.2 ⟨⟨u, t⟩, AList.mem_lookup_iff.1 hu, rfl⟩

theorem written_foldl_send (ts : List SessionId) :
    (ts.foldl (fun sv t => sv.send t env) sv).written = sv.written ++ ts.map fun t => (t, env) := by
  induction ts generalizing sv with
  | nil => exact (List.append_nil _).symm
  | cons t ts ih =>
    rw [List.foldl_cons, ih, List.map_cons, List.append_cons]
    rfl

theorem written_broadcast :
    (sv.broadcast env exclude).written =
      sv.written ++ (sv.broadcastTargets exclude).map fun t => (t, env) :=
  written_foldl_send sv env _

end Broadcast

/-! ## Chat messages to a channel -/

/-- The envelopes written on the way from `sv` to `sv'`. -/
def newlyWritten (sv sv' : Server) : List (SessionId × Envelope) :=
  sv'.written.drop sv.written.length

/-- A chat message to a channel that `handle_chat` accepts from the session. -/
structure ChannelChat (x : Session) where
  chat : ChatEnvelope
  sender : chat.senderId = x.userId
  channel : chat.recipientId.head? = some (ch '#')

section ChannelChat

variable (codec : Codec) (d : Draws) (sv : Server) (s : SessionId) (x : Session)
  (m : ChannelChat x) (raw : Envelope)

/-- The message is written only to sessions of members other than the sender, and only if the
sender may speak in the channel. -/
def StaysInChannel : Prop :=
  ∀ t env, (t, env) ∈ sv.newlyWritten (sv.handleChat codec d s x m.chat raw) →
    t ≠ s ∧ MaySpeak sv.commands m.chat.recipientId x.userId ∧
      ∀ u, sv.findSession u = some t → IsMember sv.commands m.chat.recipientId u

/-- Whoever else is online is in the channel, and if there is anybody, then the sender may speak in
it. -/
def OthersAreMembers : Prop :=
  ∀ u t, sv.findSession u = some t → t ≠ s →
    MaySpeak sv.commands m.chat.recipientId x.userId ∧
      IsMember sv.commands m.chat.recipientId u

/-- A channel message is broadcast. -/
theorem newlyWritten_handleChat :
    sv.newlyWritten (sv.handleChat codec d s x m.chat raw) =
      (sv.broadcastTargets (some s)).map fun t => (t, raw) := by
  have hnonempty : m.chat.recipientId.isEmpty = false := by
    cases hrecipient : m.chat.recipientId with
    | nil =>
      have hhead := m.channel
      rw [hrecipient] at hhead
      cases hhead
    | cons => rfl
  unfold newlyWritten handleChat
  rw [if_neg (fun hne => hne m.sender), if_neg (by simp [hnonempty]), if_pos m.channel,
    written_broadcast, List.drop_left]

/-- A channel message stays among the members of the channel exactly when everybody else who is
online is one of them, and either nobody else is online or the sender may speak: the broadcast looks
at neither. -/
theorem stays_in_channel_iff :
    sv.StaysInChannel codec d s x m raw ↔ sv.OthersAreMembers s x m := by
  unfold StaysInChannel OthersAreMembers
  rw [newlyWritten_handleChat]
  constructor
  · intro hstays u t hu hts
    have ht : t ∈ sv.broadcastTargets (some s) :=
      (mem_broadcastTargets sv (some s)).2 ⟨⟨u, hu⟩, fun e => hts (Option.some.inj e)⟩
    obtain ⟨-, hspeak, hmember⟩ := hstays t raw (List.mem_map.2 ⟨t, ht, rfl⟩)
    exact ⟨hspeak, hmember u hu⟩
  · intro hothers t env ht
    obtain ⟨t', ht', e⟩ := List.mem_map.1 ht
    cases e
    obtain ⟨⟨u, hu⟩, hts⟩ := (mem_broadcastTargets sv (some s)).1 ht'
    have hts' : t ≠ s := fun e => hts (congrArg some e)
    exact ⟨hts', (hothers u t hu hts').1, fun v hv => (hothers v t hv hts').2⟩

end ChannelChat

/-! ## A banned user speaks -/

/-- The signature of `bob` for a challenge of zeros. -/
def bobSignature : Bytes :=
  [169, 54, 185, 83, 11, 238, 60, 58, 19, 128, 200, 181, 96, 149, 35, 42, 7, 13, 128, 149, 16, 96,
    221, 86, 237, 176, 79, 183, 70, 75, 190, 241, 253, 196, 65, 8, 166, 56, 136, 205, 104, 10, 146,
    252, 159, 33, 248, 253, 38, 84, 101, 252, 137, 173, 178, 84, 197, 113, 42, 242, 84, 135, 154,
    14]

/-- The verdicts of libsodium when `alice` and `bob` signed a challenge of zeros. -/
def aliceBobCrypto : Crypto :=
  .ofSignatures [(aliceSignature, List.replicate 32 0 ++ str "alice", zeroSeedKey),
    (bobSignature, List.replicate 32 0 ++ str "bob", zeroSeedKey)]

/-- A command typed in the session `s`. -/
def commandEvents (s : SessionId) (command : String) (args : List String) : List Event :=
  frameEvents s .command (Codec.proto3.ircCommand.serialize ⟨str command, args.map str⟩)

/-- `alice` and `bob` log in, and `alice` opens `#a` and bans `bob` from it. -/
def bannedRun : List Input :=
  (loginEvents 0 (str "alice") aliceSignature ++ loginEvents 1 (str "bob") bobSignature ++
    commandEvents 0 "join" ["#a"] ++ commandEvents 0 "ban" ["#a", "bob"]).map Event.atZero

def bannedServer : Server :=
  final (step .proto3 aliceBobCrypto) (start ⟨10, 10, 10, []⟩ .empty) bannedRun

/-- `bob`, banned from the channel and never in it, still reaches its member `alice`. -/
theorem not_staysInChannel_bannedServer :
    ∃ x, ∃ m : ChannelChat x, bannedServer.sessions[1]? = some x ∧ x.state = .established ∧
      IsBanned bannedServer.commands m.chat.recipientId x.userId ∧
      ∀ codec d raw, ¬ bannedServer.StaysInChannel codec d 1 x m raw := by
  obtain ⟨x, found, hx⟩ := @found_of_any bannedServer 1
    (fun x => x.state == .established && x.userId == str "bob") (by decide +kernel)
  obtain ⟨hstate, huser⟩ := (Bool.and_eq_true _ _).mp hx
  have hbob : x.userId = str "bob" := beq_iff_eq.1 huser
  have hbanned : ∃ chan, bannedServer.commands.channels.lookup (str "#a") = some chan ∧
      str "bob" ∈ chan.banned := by decide +kernel
  refine ⟨x, ⟨⟨str "bob", str "#a"⟩, hbob.symm, by decide⟩, found, beq_iff_eq.1 hstate, ?_, ?_⟩
  · show IsBanned bannedServer.commands (str "#a") x.userId
    rw [hbob]
    exact hbanned
  · intro codec d raw hstays
    have halice : bannedServer.findSession (str "alice") = some 0 := by decide +kernel
    obtain ⟨chan, hchan, hmember, -⟩ :=
      ((stays_in_channel_iff codec d bannedServer 1 x _ raw).1 hstays _ _ halice (by decide)).1
    have hnot : ∀ chan ∈ bannedServer.commands.channels.lookup (str "#a"),
        str "bob" ∉ chan.members := by decide +kernel
    exact hnot chan hchan (hbob ▸ hmember)

end Server

end Ircord

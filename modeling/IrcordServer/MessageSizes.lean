import IrcordServer.Net.Session
import IrcordServer.ProtobufSizes
import IrcordServer.RoundTrip

/-!
# How long messages are

What a frame may carry (`Envelope.Fits`), and what the encoding promises about sizes
(`Codec.Compact`): a message is little longer than the data in it, and an envelope that was received
is not longer when it is sent again.
-/

open Protobuf

namespace Ircord

/-- `do_read_frame_header` accepts a frame with this envelope. -/
def Envelope.Fits (codec : Codec) (env : Envelope) : Prop :=
  1 ≤ (codec.envelope.serialize env).length ∧
    (codec.envelope.serialize env).length ≤ Session.maxMessageSize

instance (codec : Codec) (env : Envelope) : Decidable (env.Fits codec) :=
  inferInstanceAs (Decidable (_ ∧ _))

/-- `kMaxMessageSize` without what the server may put around the data in a message: field headers,
numbers, a user id and texts of its own. -/
def maxContent : ℕ := Session.maxMessageSize - 256

theorem maxContent_eq : maxContent = 65280 := rfl

/-- What the wire format of proto3 promises about the messages that the server writes.  A string of
less than `2 ^ 21` bytes has a header of four bytes at most; a number, a `bool` or an enumeration
takes eleven at most, a `float` five.  An envelope is read back as it was written, and one of a
listed type that was received is not longer when it is written again. -/
class Codec.Compact (codec : Codec) : Prop where
  envelope_pos (env : Envelope) : env.type.code ≠ 0 → 1 ≤ (codec.envelope.serialize env).length
  envelope_le (env : Envelope) : env.payload.length < 2 ^ 21 →
    (codec.envelope.serialize env).length ≤ env.payload.length + 37
  received_le (data : Bytes) (env : Envelope) : codec.envelope.parse data = some env →
    env.type ∈ MessageType.listed → (codec.envelope.serialize env).length ≤ data.length
  reparse (data : Bytes) (env : Envelope) : codec.envelope.parse data = some env →
    codec.envelope.parse (codec.envelope.serialize env) = some env
  parse_serialize (type : MessageType) (payload : Bytes) : type ∈ MessageType.listed →
    payload.length < 2 ^ 21 →
      codec.envelope.parse (codec.envelope.serialize ⟨0, 0, type, payload⟩) =
        some ⟨0, 0, type, payload⟩
  authChallenge_le (nonce : Bytes) : nonce.length < 2 ^ 21 →
    (codec.authChallenge.serialize ⟨nonce⟩).length ≤ nonce.length + 4
  errorMessage_le (code : UInt32) (a : Str) : a.length < 2 ^ 21 →
    (codec.errorMessage.serialize ⟨code, a⟩).length ≤ a.length + 15
  motdMessage_le (lines : List Str) : (∀ l ∈ lines, l.length < 2 ^ 21) →
    (codec.motdMessage.serialize ⟨lines⟩).length ≤ (lines.map fun l => l.length + 4).sum
  presenceUpdate_le (a : Str) (status : PresenceStatus) : a.length < 2 ^ 21 →
    (codec.presenceUpdate.serialize ⟨a, status⟩).length ≤ a.length + 15
  voiceRoomJoin_le (a b : Str) : a.length < 2 ^ 21 → b.length < 2 ^ 21 →
    (codec.voiceRoomJoin.serialize ⟨a, b⟩).length ≤ a.length + b.length + 8
  voiceRoomLeave_le (a b : Str) : a.length < 2 ^ 21 → b.length < 2 ^ 21 →
    (codec.voiceRoomLeave.serialize ⟨a, b⟩).length ≤ a.length + b.length + 8
  voiceRoomState_le (a : Str) (participants : List Str) : a.length < 2 ^ 21 →
    (∀ p ∈ participants, p.length < 2 ^ 21) →
      (codec.voiceRoomState.serialize ⟨a, participants⟩).length ≤
        a.length + 4 + (participants.map fun p => p.length + 4).sum
  nickChange_le (a b : Str) : a.length < 2 ^ 21 → b.length < 2 ^ 21 →
    (codec.nickChange.serialize ⟨a, b⟩).length ≤ a.length + b.length + 8
  keyBundle_le (bundle : KeyBundle) :
    bundle.identityPub.length + bundle.signedPrekey.length + bundle.spkSignature.length +
        bundle.oneTimePrekey.length + bundle.recipientFor.length < 2 ^ 21 →
      (codec.keyBundle.serialize bundle).length ≤
        bundle.identityPub.length + bundle.signedPrekey.length + bundle.spkSignature.length +
          bundle.oneTimePrekey.length + bundle.recipientFor.length + 20
  commandResponse_le (success : Bool) (a b : Str) : a.length < 2 ^ 21 → b.length < 2 ^ 21 →
    (codec.commandResponse.serialize ⟨success, a, b⟩).length ≤ a.length + b.length + 19
  userInfo_le (a b : Str) (isOnline : Bool) (channels : List Str) : a.length < 2 ^ 21 →
    b.length < 2 ^ 21 → (∀ l ∈ channels, l.length < 2 ^ 21) →
      (codec.userInfo.serialize ⟨a, b, isOnline, channels⟩).length ≤
        a.length + b.length + 19 + (channels.map fun l => l.length + 4).sum
  fileChunk_le (a : Str) (index : UInt32) (b : Bytes) (isLast : Bool) : a.length < 2 ^ 21 →
    b.length < 2 ^ 21 →
      (codec.fileChunk.serialize ⟨a, index, b, isLast⟩).length ≤ a.length + b.length + 30
  fileProgress_le (a : Str) (transferred total : ℕ) (percent : ℚ) (b : Str) : a.length < 2 ^ 21 →
    b.length < 2 ^ 21 →
      (codec.fileProgress.serialize ⟨a, transferred, total, percent, b⟩).length ≤
        a.length + b.length + 35
  fileComplete_le (a : Str) (total : ℕ) : a.length < 2 ^ 21 →
    (codec.fileComplete.serialize ⟨a, total⟩).length ≤ a.length + 15
  fileError_le (a : Str) (code : UInt32) (b : Str) : a.length < 2 ^ 21 → b.length < 2 ^ 21 →
    (codec.fileError.serialize ⟨a, code, b⟩).length ≤ a.length + b.length + 19

/-! ## Envelopes -/

section Fits

variable {codec : Codec} [compact : codec.Compact] {env : Envelope}

/-- The envelope itself takes 37 bytes at most, and at least one if it has a type. -/
theorem Envelope.fits_of_payload (htype : env.type.code ≠ 0)
    (hpayload : env.payload.length ≤ maxContent + 219) : env.Fits codec := by
  rw [maxContent_eq] at hpayload
  have hle := compact.envelope_le env (by omega)
  refine ⟨compact.envelope_pos env htype, hle.trans ?_⟩
  unfold Session.maxMessageSize
  omega

/-- An envelope that arrived in a frame can be relayed. -/
theorem Envelope.fits_of_parse {data : Bytes} (h : codec.envelope.parse data = some env)
    (hlisted : env.type ∈ MessageType.listed) (hdata : data.length ≤ Session.maxMessageSize) :
    env.Fits codec := by
  have htypes : ∀ type ∈ MessageType.listed, type.code ≠ 0 := by decide
  exact ⟨compact.envelope_pos env (htypes _ hlisted),
    (compact.received_le data env h hlisted).trans hdata⟩

end Fits

/-! ## The proto3 encoding -/

section Envelope

variable {env : Envelope}

theorem serialize_envelope (env : Envelope) : Codec.proto3.envelope.serialize env =
    encode (envelopeFields env.seq (toUInt64 env.timestampMs) env.type.code env.payload) := rfl

theorem length_envelopeFields (seq timestamp type : ℕ) (payload : Bytes) :
    (encode (envelopeFields seq timestamp type payload)).length =
      (encode (uint 1 seq)).length + (encode (uint 2 timestamp)).length +
        (encode (uint 3 type)).length + (encode (bytes 4 payload)).length := by
  unfold envelopeFields
  rw [encode_append, encode_append, encode_append]
  simp only [List.length_append]

theorem one_le_length_encode_uint (number : ℕ) {n : ℕ} (h : n ≠ 0) :
    1 ≤ (encode (uint number n)).length := by
  unfold uint
  rw [if_neg h]
  rw [length_encode, List.map_singleton, List.sum_singleton]
  exact List.length_pos_iff.2 (encodeField_ne_nil _)

theorem length_serialize_envelope_le (hpayload : env.payload.length < 2 ^ 21) :
    (Codec.proto3.envelope.serialize env).length ≤ env.payload.length + 37 := by
  have hseq := @length_encode_uint_le 1 (by decide) env.seq
  have htimestamp := @length_encode_uint_le 2 (by decide) (toUInt64 env.timestampMs)
  have hcode := @length_encode_uint_le 3 (by decide) env.type.code
  have hbytes := @length_encode_bytes_le 4 env.payload (by decide) hpayload
  rw [serialize_envelope, length_envelopeFields]
  omega

theorem one_le_length_serialize_envelope (htype : env.type.code ≠ 0) :
    1 ≤ (Codec.proto3.envelope.serialize env).length := by
  have hpos := one_le_length_encode_uint 3 htype
  rw [serialize_envelope, length_envelopeFields]
  omega

theorem nodup_envelopeFields (seq timestamp type : ℕ) (payload : Bytes) :
    (envelopeFields seq timestamp type payload).Nodup := by
  unfold envelopeFields uint bytes
  split_ifs <;> simp

/-- What was received does not get longer. -/
theorem length_serialize_of_parse {data : Bytes}
    (h : Codec.proto3.envelope.parse data = some env) :
    (Codec.proto3.envelope.serialize env).length ≤ data.length := by
  obtain ⟨fields, hdecode, henv⟩ := Option.bind_eq_some_iff.1 h
  cases henv
  have htimestamp : toUInt64 (getUint fields 2 : ℕ) = getUint fields 2 := by
    have hlt := getUint_lt (valid_of_decode hdecode) 2
    unfold toUInt64
    omega
  rw [serialize_envelope, htimestamp, MessageType.code_ofCode]
  refine (length_encode_le_of_subset (nodup_envelopeFields _ _ _ _) ?_).trans
    (length_encode_of_decode hdecode)
  unfold envelopeFields
  refine List.append_subset.2 ⟨List.append_subset.2 ⟨List.append_subset.2 ⟨?_, ?_⟩, ?_⟩, ?_⟩
  · exact uint_getUint_subset fields 1
  · exact uint_getUint_subset fields 2
  · exact uint_getUint_subset fields 3
  · exact bytes_getBytes_subset fields 4

end Envelope

/-! ## Payloads -/

section Payloads

variable {a b c : Bytes}

theorem length_serialize_errorMessage (code : UInt32) (h : a.length < 2 ^ 21) :
    (Codec.proto3.errorMessage.serialize ⟨code, a⟩).length ≤ a.length + 15 := by
  have hcode := @length_encode_uint_le 1 (by decide) code.toNat
  have hmessage := @length_encode_bytes_le 2 a (by decide) h
  show (encode (uint 1 code.toNat ++ bytes 2 a)).length ≤ _
  rw [encode_append, List.length_append]
  omega

theorem length_serialize_motdMessage {lines : List Str} (h : ∀ l ∈ lines, l.length < 2 ^ 21) :
    (Codec.proto3.motdMessage.serialize ⟨lines⟩).length ≤
      (lines.map fun l => l.length + 4).sum :=
  length_encode_repeatedBytes_le (by decide) h

theorem length_serialize_presenceUpdate (status : PresenceStatus) (h : a.length < 2 ^ 21) :
    (Codec.proto3.presenceUpdate.serialize ⟨a, status⟩).length ≤ a.length + 15 := by
  have huser := @length_encode_bytes_le 1 a (by decide) h
  have hstatus := @length_encode_uint_le 2 (by decide) status.code
  show (encode (bytes 1 a ++ uint 2 status.code)).length ≤ _
  rw [encode_append, List.length_append]
  omega

/-- The messages with two strings: `VoiceRoomJoin`, `VoiceRoomLeave` and `NickChange`. -/
theorem length_encode_pair (ha : a.length < 2 ^ 21) (hb : b.length < 2 ^ 21) :
    (encode (bytes 1 a ++ bytes 2 b)).length ≤ a.length + b.length + 8 := by
  have hfirst := @length_encode_bytes_le 1 a (by decide) ha
  have hsecond := @length_encode_bytes_le 2 b (by decide) hb
  rw [encode_append, List.length_append]
  omega

theorem length_serialize_voiceRoomState {participants : List Str} (ha : a.length < 2 ^ 21)
    (h : ∀ p ∈ participants, p.length < 2 ^ 21) :
    (Codec.proto3.voiceRoomState.serialize ⟨a, participants⟩).length ≤
      a.length + 4 + (participants.map fun p => p.length + 4).sum := by
  have hchannel := @length_encode_bytes_le 1 a (by decide) ha
  have hparticipants : (encode (repeatedBytes 2 participants)).length ≤
      (participants.map fun p => p.length + 4).sum := length_encode_repeatedBytes_le (by decide) h
  show (encode (bytes 1 a ++ repeatedBytes 2 participants)).length ≤ _
  rw [encode_append, List.length_append]
  omega

theorem length_serialize_keyBundle (bundle : KeyBundle)
    (h : bundle.identityPub.length + bundle.signedPrekey.length + bundle.spkSignature.length +
      bundle.oneTimePrekey.length + bundle.recipientFor.length < 2 ^ 21) :
    (Codec.proto3.keyBundle.serialize bundle).length ≤
      bundle.identityPub.length + bundle.signedPrekey.length + bundle.spkSignature.length +
        bundle.oneTimePrekey.length + bundle.recipientFor.length + 20 := by
  have hidentity := @length_encode_bytes_le 1 bundle.identityPub (by decide) (by omega)
  have hprekey := @length_encode_bytes_le 2 bundle.signedPrekey (by decide) (by omega)
  have hsignature := @length_encode_bytes_le 3 bundle.spkSignature (by decide) (by omega)
  have hone := @length_encode_bytes_le 5 bundle.oneTimePrekey (by decide) (by omega)
  have hrecipient := @length_encode_bytes_le 7 bundle.recipientFor (by decide) (by omega)
  show (encode (bytes 1 bundle.identityPub ++ bytes 2 bundle.signedPrekey ++
    bytes 3 bundle.spkSignature ++ bytes 5 bundle.oneTimePrekey ++
    bytes 7 bundle.recipientFor)).length ≤ _
  simp only [encode_append, List.length_append]
  omega

theorem length_serialize_commandResponse (success : Bool) (ha : a.length < 2 ^ 21)
    (hb : b.length < 2 ^ 21) :
    (Codec.proto3.commandResponse.serialize ⟨success, a, b⟩).length ≤
      a.length + b.length + 19 := by
  have hsuccess := @length_encode_flag_le 1 (by decide) success
  have hmessage := @length_encode_bytes_le 2 a (by decide) ha
  have hcommand := @length_encode_bytes_le 3 b (by decide) hb
  show (encode (flag 1 success ++ bytes 2 a ++ bytes 3 b)).length ≤ _
  simp only [encode_append, List.length_append]
  omega

theorem length_serialize_userInfo (isOnline : Bool) {channels : List Str} (ha : a.length < 2 ^ 21)
    (hb : b.length < 2 ^ 21) (h : ∀ l ∈ channels, l.length < 2 ^ 21) :
    (Codec.proto3.userInfo.serialize ⟨a, b, isOnline, channels⟩).length ≤
      a.length + b.length + 19 + (channels.map fun l => l.length + 4).sum := by
  have huser := @length_encode_bytes_le 1 a (by decide) ha
  have hnick := @length_encode_bytes_le 2 b (by decide) hb
  have honline := @length_encode_flag_le 3 (by decide) isOnline
  have hchannels : (encode (repeatedBytes 4 channels)).length ≤
      (channels.map fun l => l.length + 4).sum := length_encode_repeatedBytes_le (by decide) h
  show (encode (bytes 1 a ++ bytes 2 b ++ flag 3 isOnline ++ repeatedBytes 4 channels)).length ≤ _
  simp only [encode_append, List.length_append]
  omega

theorem length_serialize_fileChunk (index : UInt32) (isLast : Bool) (ha : a.length < 2 ^ 21)
    (hb : b.length < 2 ^ 21) :
    (Codec.proto3.fileChunk.serialize ⟨a, index, b, isLast⟩).length ≤
      a.length + b.length + 30 := by
  have hfile := @length_encode_bytes_le 1 a (by decide) ha
  have hindex := @length_encode_uint_le 2 (by decide) index.toNat
  have hdata := @length_encode_bytes_le 3 b (by decide) hb
  have hlast := @length_encode_flag_le 4 (by decide) isLast
  show (encode (bytes 1 a ++ uint 2 index.toNat ++ bytes 3 b ++ flag 4 isLast)).length ≤ _
  simp only [encode_append, List.length_append]
  omega

theorem length_serialize_fileProgress (transferred total : ℕ) (percent : ℚ)
    (ha : a.length < 2 ^ 21) (hb : b.length < 2 ^ 21) :
    (Codec.proto3.fileProgress.serialize ⟨a, transferred, total, percent, b⟩).length ≤
      a.length + b.length + 35 := by
  have hfile := @length_encode_bytes_le 1 a (by decide) ha
  have htransferred := @length_encode_uint_le 2 (by decide) transferred
  have htotal := @length_encode_uint_le 3 (by decide) total
  have hpercent : (encode (if percent = 0 then [] else
      [(4, .fixed32 (floatBytes percent))])).length ≤ 5 := by
    split_ifs
    · exact Nat.zero_le 5
    · rw [length_encode, List.map_singleton, List.sum_singleton]
      exact length_encodeField_le (by decide) (.fixed32 (floatBytes percent))
  have hstatus := @length_encode_bytes_le 5 b (by decide) hb
  show (encode (bytes 1 a ++ uint 2 transferred ++ uint 3 total ++
    (if percent = 0 then [] else [(4, .fixed32 (floatBytes percent))]) ++ bytes 5 b)).length ≤ _
  simp only [encode_append, List.length_append]
  omega

theorem length_serialize_fileComplete (total : ℕ) (ha : a.length < 2 ^ 21) :
    (Codec.proto3.fileComplete.serialize ⟨a, total⟩).length ≤ a.length + 15 := by
  have hfile := @length_encode_bytes_le 1 a (by decide) ha
  have htotal := @length_encode_uint_le 3 (by decide) total
  show (encode (bytes 1 a ++ uint 3 total)).length ≤ _
  rw [encode_append, List.length_append]
  omega

theorem length_serialize_fileError (code : UInt32) (ha : a.length < 2 ^ 21)
    (hb : b.length < 2 ^ 21) :
    (Codec.proto3.fileError.serialize ⟨a, code, b⟩).length ≤ a.length + b.length + 19 := by
  have hfile := @length_encode_bytes_le 1 a (by decide) ha
  have hcode := @length_encode_uint_le 2 (by decide) code.toNat
  have hmessage := @length_encode_bytes_le 3 b (by decide) hb
  show (encode (bytes 1 a ++ uint 2 code.toNat ++ bytes 3 b)).length ≤ _
  simp only [encode_append, List.length_append]
  omega

end Payloads

/-- The proto3 encoding keeps the promises. -/
instance : Codec.proto3.Compact where
  envelope_pos _ := one_le_length_serialize_envelope
  envelope_le _ := length_serialize_envelope_le
  received_le _ _ h _ := length_serialize_of_parse h
  reparse _ _ := reparse_envelope
  parse_serialize type payload htype hpayload := by
    have hcodes : ∀ type ∈ MessageType.listed,
        MessageType.ofCode type.code = type ∧ type.code < 2 ^ 64 := by decide
    exact parse_serialize_envelope (show 0 < 2 ^ 64 by decide) ⟨rfl, by decide⟩
      (hcodes type htype) (hpayload.trans (by decide))
  authChallenge_le _ := length_encode_bytes_le (by decide)
  errorMessage_le code _ := length_serialize_errorMessage code
  motdMessage_le _ := length_serialize_motdMessage
  presenceUpdate_le _ := length_serialize_presenceUpdate
  voiceRoomJoin_le _ _ := length_encode_pair
  voiceRoomLeave_le _ _ := length_encode_pair
  voiceRoomState_le _ _ := length_serialize_voiceRoomState
  nickChange_le _ _ := length_encode_pair
  keyBundle_le := length_serialize_keyBundle
  commandResponse_le success _ _ := length_serialize_commandResponse success
  userInfo_le _ _ isOnline _ := length_serialize_userInfo isOnline
  fileChunk_le _ index _ isLast := length_serialize_fileChunk index isLast
  fileProgress_le _ transferred total percent _ :=
    length_serialize_fileProgress transferred total percent
  fileComplete_le _ := length_serialize_fileComplete
  fileError_le _ code _ := length_serialize_fileError code

end Ircord

import IrcordServer.Wire
import Mathlib.Tactic.Ring

/-!
# Reading back what was written

The fields that were written are the fields that are read (`Protobuf.decode_encode`), and every
message that was read could have been written (`Protobuf.valid_of_decode`).  So an envelope that was
received, serialized and parsed again is the same envelope.
-/

namespace Protobuf

/-! ## Variable-length numbers -/

theorem readDigits_varintDigits (k n w : ℕ) (rest : List UInt8) (hn : n < 128 ^ (k + 1)) :
    readDigits (k + 1) w (varintDigits (k + 1) n ++ rest) = some (n * w, rest) := by
  induction k generalizing n w with
  | zero =>
    have hsmall : n < 128 := by simpa using hn
    have hmod : n % 256 = n := Nat.mod_eq_of_lt (by omega)
    simp [varintDigits, readDigits, hsmall, hmod]
  | succ k ih =>
    by_cases hsmall : n < 128
    · have hmod : n % 256 = n := Nat.mod_eq_of_lt (by omega)
      simp [varintDigits, readDigits, hsmall, hmod]
    · have hdigit : (n % 128 + 128) % 256 = n % 128 + 128 := Nat.mod_eq_of_lt (by omega)
      have hlt : n / 128 < 128 ^ (k + 1) := by
        rw [Nat.div_lt_iff_lt_mul (by omega), ← pow_succ]
        exact hn
      rw [varintDigits, if_neg hsmall, List.cons_append, readDigits]
      simp only [UInt8.toNat_ofNat', hdigit]
      rw [if_neg (by omega), ih _ _ hlt]
      have hsplit : n % 128 * w + n / 128 * (w * 128) = n * w := by
        calc n % 128 * w + n / 128 * (w * 128) = (n % 128 + 128 * (n / 128)) * w := by ring
          _ = n * w := by rw [Nat.mod_add_div]
      simp [hsplit]

theorem readVarint_varint (n : ℕ) (rest : List UInt8) (hn : n < 2 ^ 64) :
    readVarint (varint n ++ rest) = some (n, rest) := by
  have hmod : n % 2 ^ 64 = n := Nat.mod_eq_of_lt hn
  have hlt : n < 128 ^ (9 + 1) := lt_of_lt_of_le hn (by norm_num)
  rw [readVarint, varint, hmod, readDigits_varintDigits 9 n 1 rest hlt, Option.map_some,
    Nat.mul_one, hmod]

theorem varint_ne_nil (n : ℕ) : varint n ≠ [] := by
  unfold varint varintDigits
  split_ifs <;> exact List.cons_ne_nil _ _

theorem readVarint_lt {bs rest : List UInt8} {n : ℕ} (h : readVarint bs = some (n, rest)) :
    n < 2 ^ 64 := by
  obtain ⟨r, -, hr⟩ := Option.map_eq_some_iff.1 h
  cases hr
  exact Nat.mod_lt _ (by norm_num)

/-! ## Fields -/

/-- A field that has an encoding. -/
def Valid (f : Field) : Prop :=
  0 < f.1 ∧ f.1 < 2 ^ 29 ∧
    match f.2 with
    | .varint n => n < 2 ^ 64
    | .fixed64 b => b.length = 8
    | .lengthDelimited b => b.length < 2 ^ 64
    | .fixed32 b => b.length = 4

theorem splitBytes_append {b rest : List UInt8} {n : ℕ} (hn : b.length = n) :
    splitBytes n (b ++ rest) = some (b, rest) := by
  subst hn
  unfold splitBytes
  rw [if_pos (by simp), List.take_left, List.drop_left]

theorem readValue_encode {f : Field} (hf : Valid f) (rest : List UInt8) :
    readValue f.2.wireType (f.2.encode ++ rest) = some (f.2, rest) := by
  obtain ⟨number, value⟩ := f
  obtain ⟨-, -, hvalue⟩ := hf
  cases value with
  | varint n =>
    have hn : n < 2 ^ 64 := hvalue
    simp [WireValue.wireType, WireValue.encode, readValue, readVarint_varint n rest hn]
  | fixed64 b =>
    have hb : b.length = 8 := hvalue
    simp [WireValue.wireType, WireValue.encode, readValue, splitBytes_append hb]
  | lengthDelimited b =>
    have hb : b.length < 2 ^ 64 := hvalue
    simp [WireValue.wireType, WireValue.encode, readValue, readVarint_varint _ _ hb,
      splitBytes_append rfl]
  | fixed32 b =>
    have hb : b.length = 4 := hvalue
    simp [WireValue.wireType, WireValue.encode, readValue, splitBytes_append hb]

theorem wireType_lt (v : WireValue) : v.wireType < 8 := by
  cases v <;> simp [WireValue.wireType]

theorem readField_encodeField {f : Field} (hf : Valid f) (rest : List UInt8) :
    readField (encodeField f ++ rest) = some (f, rest) := by
  have hpos : 0 < f.1 := hf.1
  have hlt : f.1 < 2 ^ 29 := hf.2.1
  have hwire := wireType_lt f.2
  have htag : f.1 * 8 + f.2.wireType < 2 ^ 64 := by omega
  have hnumber : (f.1 * 8 + f.2.wireType) / 8 = f.1 := by omega
  have htype : (f.1 * 8 + f.2.wireType) % 8 = f.2.wireType := by omega
  rw [readField, encodeField, List.append_assoc, readVarint_varint _ _ htag, Option.bind_some]
  dsimp only
  rw [hnumber, htype, if_neg (by omega), readValue_encode hf, Option.map_some]

theorem encodeField_ne_nil (f : Field) : encodeField f ≠ [] :=
  fun h => varint_ne_nil _ (List.append_eq_nil_iff.1 h).1

theorem readFields_encode {fields : List Field} (hvalid : ∀ f ∈ fields, Valid f) (k : ℕ)
    (hk : (encode fields).length ≤ k) : readFields k (encode fields) = some fields := by
  induction fields generalizing k with
  | nil =>
    cases k <;> rfl
  | cons f fields ih =>
    have hencode : encode (f :: fields) = encodeField f ++ encode fields := rfl
    rw [hencode, List.length_append] at hk
    have hpos := List.length_pos_of_ne_nil (encodeField_ne_nil f)
    have hread := readField_encodeField (hvalid f List.mem_cons_self) (encode fields)
    have hrest := ih (fun g hg => hvalid g (List.mem_cons_of_mem f hg)) (k - 1) (by omega)
    obtain ⟨k, rfl⟩ : ∃ j, k = j + 1 := ⟨k - 1, by omega⟩
    rw [hencode]
    cases hbytes : encodeField f ++ encode fields with
    | nil => exact absurd (List.append_eq_nil_iff.1 hbytes).1 (encodeField_ne_nil f)
    | cons b bs =>
      rw [hbytes] at hread
      rw [readFields, hread]
      simp only [Nat.add_sub_cancel] at hrest
      simp [hrest]

/-- Fields are read back as they were written. -/
theorem decode_encode {fields : List Field} (hvalid : ∀ f ∈ fields, Valid f) :
    decode (encode fields) = some fields :=
  readFields_encode hvalid _ le_rfl

theorem valid_of_readField {bs rest : List UInt8} {f : Field}
    (h : readField bs = some (f, rest)) : Valid f := by
  obtain ⟨⟨tag, bs'⟩, -, h⟩ := Option.bind_eq_some_iff.1 h
  dsimp only at h
  split_ifs at h with hnumber
  obtain ⟨⟨value, rest'⟩, hvalue, hf⟩ := Option.map_eq_some_iff.1 h
  cases hf
  refine ⟨by dsimp only; omega, by dsimp only; omega, ?_⟩
  unfold readValue at hvalue
  split at hvalue
  · obtain ⟨⟨n, r⟩, hread, hr⟩ := Option.map_eq_some_iff.1 hvalue
    cases hr
    exact readVarint_lt hread
  · obtain ⟨⟨b, r⟩, hsplit, hr⟩ := Option.map_eq_some_iff.1 hvalue
    cases hr
    unfold splitBytes at hsplit
    split_ifs at hsplit
    cases hsplit
    show (bs'.take 8).length = 8
    rw [List.length_take]
    omega
  · obtain ⟨⟨n, r⟩, hread, hvalue⟩ := Option.bind_eq_some_iff.1 hvalue
    obtain ⟨⟨b, r'⟩, hsplit, hr⟩ := Option.map_eq_some_iff.1 hvalue
    cases hr
    have hn := readVarint_lt hread
    unfold splitBytes at hsplit
    split_ifs at hsplit
    cases hsplit
    show (r.take n).length < 2 ^ 64
    rw [List.length_take]
    omega
  · obtain ⟨⟨b, r⟩, hsplit, hr⟩ := Option.map_eq_some_iff.1 hvalue
    cases hr
    unfold splitBytes at hsplit
    split_ifs at hsplit
    cases hsplit
    show (bs'.take 4).length = 4
    rw [List.length_take]
    omega
  · cases hvalue

/-- Every field that was read could have been written. -/
theorem valid_of_decode {bs : List UInt8} {fields : List Field} (h : decode bs = some fields) :
    ∀ f ∈ fields, Valid f := by
  have hread : ∀ k bs fields, readFields k bs = some fields → ∀ f ∈ fields, Valid f := by
    intro k
    induction k with
    | zero =>
      intro bs fields h
      cases bs with
      | nil => cases h; exact fun f hf => absurd hf List.not_mem_nil
      | cons => cases h
    | succ k ih =>
      intro bs fields h
      cases bs with
      | nil => cases h; exact fun f hf => absurd hf List.not_mem_nil
      | cons b bs =>
        unfold readFields at h
        split at h
        · cases h
        · rename_i f rest hfield
          obtain ⟨fields', hfields', rfl⟩ := Option.map_eq_some_iff.1 h
          intro g hg
          rcases List.mem_cons.1 hg with rfl | hg
          · exact valid_of_readField hfield
          · exact ih rest fields' hfields' g hg
  exact hread _ bs fields h

theorem valid_uint {number n : ℕ} (hnumber : 0 < number ∧ number < 2 ^ 29) (hn : n < 2 ^ 64) :
    ∀ f ∈ uint number n, Valid f := by
  intro f hf
  unfold uint at hf
  split_ifs at hf
  · exact absurd hf List.not_mem_nil
  · rw [List.mem_singleton.1 hf]
    exact ⟨hnumber.1, hnumber.2, hn⟩

theorem valid_bytes {number : ℕ} {b : List UInt8} (hnumber : 0 < number ∧ number < 2 ^ 29)
    (hb : b.length < 2 ^ 64) : ∀ f ∈ bytes number b, Valid f := by
  intro f hf
  unfold bytes at hf
  split_ifs at hf
  · exact absurd hf List.not_mem_nil
  · rw [List.mem_singleton.1 hf]
    exact ⟨hnumber.1, hnumber.2, hb⟩

theorem valid_append {fields gs : List Field} (h : ∀ f ∈ fields, Valid f)
    (h' : ∀ f ∈ gs, Valid f) : ∀ f ∈ fields ++ gs, Valid f :=
  List.forall_mem_append.2 ⟨h, h'⟩

/-! ## What was read -/

theorem getUint_lt {fields : List Field} (hvalid : ∀ f ∈ fields, Valid f) (number : ℕ) :
    getUint fields number < 2 ^ 64 := by
  unfold getUint
  refine List.foldlRecOn (motive := fun n => n < 2 ^ 64) fields _ (by norm_num) fun n hn f hf => ?_
  have hf := hvalid f hf
  split
  · split_ifs
    · exact hf.2.2
    · exact hn
  · exact hn

theorem length_lt_of_mem_getRepeatedBytes {fields : List Field} (hvalid : ∀ f ∈ fields, Valid f)
    {number : ℕ} {b : List UInt8} (hb : b ∈ getRepeatedBytes fields number) :
    b.length < 2 ^ 64 := by
  obtain ⟨f, hf, hb⟩ := List.mem_filterMap.1 hb
  have hfvalid := hvalid f hf
  split at hb
  · split_ifs at hb
    cases hb
    exact hfvalid.2.2
  · cases hb

theorem length_getBytes_lt {fields : List Field} (hvalid : ∀ f ∈ fields, Valid f) (number : ℕ) :
    (getBytes fields number).length < 2 ^ 64 := by
  unfold getBytes
  rw [List.getLastD_eq_getLast?]
  cases hlast : (getRepeatedBytes fields number).getLast? with
  | none => norm_num
  | some b => exact length_lt_of_mem_getRepeatedBytes hvalid (List.mem_of_getLast? hlast)

end Protobuf

/-! ## Envelopes -/

namespace Ircord

open Protobuf

theorem MessageType.code_ofCode (n : ℕ) : (MessageType.ofCode n).code = n := by
  unfold MessageType.ofCode
  cases hfind : MessageType.listed.find? fun t => t.code == n with
  | none => rfl
  | some t =>
    have ht := List.find?_some hfind
    exact beq_iff_eq.1 ht

/-- The fields of an envelope, as they are written. -/
def envelopeFields (seq timestamp type : ℕ) (payload : Bytes) : List Field :=
  uint 1 seq ++ uint 2 timestamp ++ uint 3 type ++ bytes 4 payload

theorem valid_envelopeFields {seq timestamp type : ℕ} {payload : Bytes} (hseq : seq < 2 ^ 64)
    (htimestamp : timestamp < 2 ^ 64) (htype : type < 2 ^ 64) (hpayload : payload.length < 2 ^ 64) :
    ∀ f ∈ envelopeFields seq timestamp type payload, Valid f := by
  apply valid_append (valid_append (valid_append ?_ ?_) ?_)
  · exact valid_bytes (by norm_num) hpayload
  · exact valid_uint (by norm_num) hseq
  · exact valid_uint (by norm_num) htimestamp
  · exact valid_uint (by norm_num) htype

theorem read_envelopeFields (seq timestamp type : ℕ) (payload : Bytes) :
    getUint (envelopeFields seq timestamp type payload) 1 = seq ∧
      getUint (envelopeFields seq timestamp type payload) 2 = timestamp ∧
      getUint (envelopeFields seq timestamp type payload) 3 = type ∧
      getBytes (envelopeFields seq timestamp type payload) 4 = payload := by
  unfold envelopeFields uint bytes getUint getBytes getRepeatedBytes
  cases hempty : payload.isEmpty <;>
    by_cases hseq : seq = 0 <;> by_cases htimestamp : timestamp = 0 <;>
      by_cases htype : type = 0 <;> simp_all

/-- An envelope whose numbers and payload fit the wire format is read back as it was written. -/
theorem parse_serialize_envelope {env : Envelope} {timestamp : ℕ} (hseq : env.seq < 2 ^ 64)
    (htimestamp : env.timestampMs = timestamp ∧ timestamp < 2 ^ 64)
    (htype : MessageType.ofCode env.type.code = env.type ∧ env.type.code < 2 ^ 64)
    (hpayload : env.payload.length < 2 ^ 64) :
    Codec.proto3.envelope.parse (Codec.proto3.envelope.serialize env) = some env := by
  have hbits : toUInt64 env.timestampMs = timestamp := by
    unfold toUInt64
    rw [htimestamp.1]
    have hlt := htimestamp.2
    omega
  have hfields : Codec.proto3.envelope.serialize env =
      encode (envelopeFields env.seq timestamp env.type.code env.payload) := by
    rw [← hbits]
    rfl
  have hdecode := decode_encode
    (valid_envelopeFields hseq htimestamp.2 htype.2 hpayload)
  obtain ⟨h₁, h₂, h₃, h₄⟩ :=
    read_envelopeFields env.seq timestamp env.type.code env.payload
  rw [hfields]
  show (decode _).bind _ = _
  rw [hdecode, Option.bind_some, h₁, h₂, h₃, h₄, htype.1, ← htimestamp.1]

/-- A received envelope survives being serialized and parsed again. -/
theorem reparse_envelope {data : Bytes} {env : Envelope}
    (hparse : Codec.proto3.envelope.parse data = some env) :
    Codec.proto3.envelope.parse (Codec.proto3.envelope.serialize env) = some env := by
  obtain ⟨fields, hdecode, henv⟩ := Option.bind_eq_some_iff.1 hparse
  have hvalid := valid_of_decode hdecode
  cases henv
  have hcode := MessageType.code_ofCode (getUint fields 3)
  refine parse_serialize_envelope (getUint_lt hvalid 1) ⟨rfl, getUint_lt hvalid 2⟩ ⟨?_, ?_⟩
    (length_getBytes_lt hvalid 4)
  · show MessageType.ofCode (MessageType.ofCode (getUint fields 3)).code = _
    rw [hcode]
  · show (MessageType.ofCode (getUint fields 3)).code < 2 ^ 64
    rw [hcode]
    exact getUint_lt hvalid 3

end Ircord

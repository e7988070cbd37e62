import IrcordServer.Protobuf
import Mathlib.Algebra.Order.BigOperators.Group.List
import Mathlib.Data.List.Perm.Subperm
import Mathlib.Tactic.Ring

/-!
# How long an encoding is

Bounds on the encoding of a field, and a message that is read and written again: numbers take the
least number of bytes, and of several fields with one number only the last is kept, so it never gets
longer.
-/

namespace Protobuf

/-! ## Variable-length numbers -/

theorem length_varintDigits_le (k n : ℕ) : (varintDigits k n).length ≤ k := by
  induction k generalizing n with
  | zero => exact Nat.le_refl 0
  | succ k ih =>
    rw [varintDigits]
    split_ifs
    · exact Nat.succ_le_succ (Nat.zero_le k)
    · exact Nat.succ_le_succ (ih _)

theorem length_varintDigits_le_of_lt {j n : ℕ} (k : ℕ) (hn : n < 128 ^ (j + 1)) :
    (varintDigits k n).length ≤ j + 1 := by
  induction j generalizing k n with
  | zero =>
    cases k with
    | zero => exact Nat.zero_le 1
    | succ k =>
      rw [varintDigits, if_pos (by simpa using hn)]
      exact Nat.le_refl 1
  | succ j ih =>
    cases k with
    | zero => exact Nat.zero_le _
    | succ k =>
      rw [varintDigits]
      split_ifs
      · exact Nat.succ_le_succ (Nat.zero_le _)
      · have hdigits : n / 128 < 128 ^ (j + 1) := by
          rw [Nat.div_lt_iff_lt_mul (by omega), ← pow_succ]
          exact hn
        exact Nat.succ_le_succ (ih k hdigits)

theorem length_varint_le (n : ℕ) : (varint n).length ≤ 10 := length_varintDigits_le 10 _

theorem length_varint_le_of_lt {j n : ℕ} (hn : n < 128 ^ (j + 1)) : (varint n).length ≤ j + 1 :=
  length_varintDigits_le_of_lt 10 ((Nat.mod_le _ _).trans_lt hn)

/-! ## Fields -/

theorem encode_append (fs gs : List Field) : encode (fs ++ gs) = encode fs ++ encode gs :=
  List.flatMap_append

theorem length_encode (fs : List Field) :
    (encode fs).length = (fs.map fun f => (encodeField f).length).sum :=
  List.length_flatMap

/-- Fields with a number below 16 are announced by one byte. -/
theorem length_encodeField_le {number : ℕ} (h : number < 16) (v : WireValue) :
    (encodeField (number, v)).length ≤ 1 + v.encode.length := by
  have hsmall : number * 8 + v.wireType < 128 ^ (0 + 1) := by
    have htype : v.wireType ≤ 5 := by cases v <;> simp [WireValue.wireType]
    omega
  rw [encodeField, List.length_append]
  exact Nat.add_le_add_right (length_varint_le_of_lt hsmall) _

theorem length_encode_uint_le {number : ℕ} (h : number < 16) (n : ℕ) :
    (encode (uint number n)).length ≤ 11 := by
  unfold uint
  split_ifs
  · exact Nat.zero_le 11
  · have hfield := length_encodeField_le h (.varint n)
    have hvarint : (WireValue.varint n).encode.length ≤ 10 := length_varint_le n
    rw [length_encode, List.map_singleton, List.sum_singleton]
    omega

theorem length_encode_flag_le {number : ℕ} (h : number < 16) (b : Bool) :
    (encode (flag number b)).length ≤ 11 :=
  length_encode_uint_le h _

theorem length_encodeField_lengthDelimited_le {number : ℕ} {b : List UInt8} (h : number < 16)
    (hb : b.length < 2 ^ 21) :
    (encodeField (number, .lengthDelimited b)).length ≤ b.length + 4 := by
  have hfield := length_encodeField_le h (.lengthDelimited b)
  have hlength : (varint b.length).length ≤ 2 + 1 := length_varint_le_of_lt (by simpa using hb)
  have hencode : (WireValue.lengthDelimited b).encode.length =
      (varint b.length).length + b.length := List.length_append
  omega

theorem length_encode_bytes_le {number : ℕ} {b : List UInt8} (h : number < 16)
    (hb : b.length < 2 ^ 21) : (encode (bytes number b)).length ≤ b.length + 4 := by
  unfold bytes
  split_ifs
  · exact Nat.zero_le _
  · rw [length_encode, List.map_singleton, List.sum_singleton]
    exact length_encodeField_lengthDelimited_le h hb

/-- The tag, the length and the data. -/
theorem length_encode_bytes (number : ℕ) {b : List UInt8} (hb : b ≠ []) :
    (encode (bytes number b)).length =
      (varint (number * 8 + 2)).length + ((varint b.length).length + b.length) := by
  have hencode : (WireValue.lengthDelimited b).encode.length =
      (varint b.length).length + b.length := List.length_append
  unfold bytes
  rw [if_neg fun hempty => hb (List.isEmpty_iff.1 hempty), length_encode, List.map_singleton,
    List.sum_singleton, encodeField, List.length_append, hencode]
  rfl

theorem length_encode_repeatedBytes_le {number : ℕ} {bs : List (List UInt8)} (h : number < 16)
    (hbs : ∀ b ∈ bs, b.length < 2 ^ 21) :
    (encode (repeatedBytes number bs)).length ≤ (bs.map fun b => b.length + 4).sum := by
  rw [length_encode, repeatedBytes, List.map_map]
  exact List.sum_le_sum fun b hb => length_encodeField_lengthDelimited_le h (hbs b hb)

/-! ## Reading and writing again -/

/-- A number that is read is below the power of 128 that its digits allow. -/
theorem readDigits_lt {k w n : ℕ} {bs rest : List UInt8}
    (h : readDigits k w bs = some (n, rest)) :
    ∃ j m, n = m * w ∧ m < 128 ^ (j + 1) ∧ bs.length = rest.length + (j + 1) := by
  induction k generalizing w n bs with
  | zero => cases h
  | succ k ih =>
    cases bs with
    | nil => cases h
    | cons b bs =>
      rw [readDigits] at h
      split_ifs at h with hlast
      · cases h
        exact ⟨0, b.toNat, rfl, by simpa using hlast, rfl⟩
      · split at h
        · cases h
        · rename_i n' rest' hrest
          cases h
          obtain ⟨j, m, hn', hm, hlength⟩ := ih hrest
          refine ⟨j + 1, b.toNat - 128 + m * 128, ?_, ?_, ?_⟩
          · rw [hn']
            ring
          · have hbyte : b.toNat < 256 := b.toNat_lt
            rw [pow_succ]
            omega
          · rw [List.length_cons, hlength]
            omega

theorem length_varint_of_readVarint {n : ℕ} {bs rest : List UInt8}
    (h : readVarint bs = some (n, rest)) : (varint n).length + rest.length ≤ bs.length := by
  obtain ⟨⟨n', rest'⟩, hdigits, e⟩ := Option.map_eq_some_iff.1 h
  cases e
  obtain ⟨j, m, rfl, hm, hlength⟩ := readDigits_lt hdigits
  have hvarint : (varint (m * 1 % 2 ^ 64)).length ≤ j + 1 :=
    length_varint_le_of_lt ((Nat.mod_le _ _).trans_lt (by rwa [Nat.mul_one]))
  dsimp only at hlength ⊢
  omega

theorem length_of_splitBytes {n : ℕ} {bs b rest : List UInt8}
    (h : splitBytes n bs = some (b, rest)) : b.length = n ∧ n + rest.length = bs.length := by
  unfold splitBytes at h
  split_ifs at h with hn
  cases h
  rw [List.length_take, List.length_drop]
  omega

theorem length_encode_of_readValue {wireType : ℕ} {bs rest : List UInt8} {v : WireValue}
    (h : readValue wireType bs = some (v, rest)) :
    v.wireType = wireType ∧ v.encode.length + rest.length ≤ bs.length := by
  unfold readValue at h
  split at h
  · obtain ⟨⟨n, rest'⟩, hread, e⟩ := Option.map_eq_some_iff.1 h
    cases e
    exact ⟨rfl, length_varint_of_readVarint hread⟩
  · obtain ⟨⟨b, rest'⟩, hsplit, e⟩ := Option.map_eq_some_iff.1 h
    cases e
    obtain ⟨hb, hrest⟩ := length_of_splitBytes hsplit
    exact ⟨rfl, by rw [WireValue.encode, hb, hrest]⟩
  · obtain ⟨⟨n, middle⟩, hread, h⟩ := Option.bind_eq_some_iff.1 h
    obtain ⟨⟨b, rest'⟩, hsplit, e⟩ := Option.map_eq_some_iff.1 h
    cases e
    obtain ⟨hb, hrest⟩ := length_of_splitBytes hsplit
    have hlength := length_varint_of_readVarint hread
    refine ⟨rfl, ?_⟩
    rw [WireValue.encode, List.length_append, hb]
    dsimp only at hrest hlength ⊢
    omega
  · obtain ⟨⟨b, rest'⟩, hsplit, e⟩ := Option.map_eq_some_iff.1 h
    cases e
    obtain ⟨hb, hrest⟩ := length_of_splitBytes hsplit
    exact ⟨rfl, by rw [WireValue.encode, hb, hrest]⟩
  · cases h

theorem length_encodeField_of_readField {bs rest : List UInt8} {f : Field}
    (h : readField bs = some (f, rest)) : (encodeField f).length + rest.length ≤ bs.length := by
  obtain ⟨⟨tag, middle⟩, hread, h⟩ := Option.bind_eq_some_iff.1 h
  dsimp only at h
  split_ifs at h
  obtain ⟨⟨v, rest'⟩, hvalue, e⟩ := Option.map_eq_some_iff.1 h
  cases e
  obtain ⟨htype, hlength⟩ := length_encode_of_readValue hvalue
  have htag : tag / 8 * 8 + v.wireType = tag := by omega
  have hfirst := length_varint_of_readVarint hread
  rw [encodeField, htag, List.length_append]
  dsimp only at hlength ⊢
  omega

theorem length_encode_of_readFields {k : ℕ} {bs : List UInt8} {fs : List Field}
    (h : readFields k bs = some fs) : (encode fs).length ≤ bs.length := by
  induction k generalizing bs fs with
  | zero =>
    cases bs with
    | nil =>
      cases h
      exact Nat.le_refl 0
    | cons b bs => cases h
  | succ k ih =>
    cases bs with
    | nil =>
      cases h
      exact Nat.le_refl 0
    | cons b bs =>
      rw [readFields] at h
      split at h
      · cases h
      · rename_i f rest hfield
        obtain ⟨gs, hgs, e⟩ := Option.map_eq_some_iff.1 h
        cases e
        have hfirst := length_encodeField_of_readField hfield
        have hrest := ih hgs
        have hcons : (encode (f :: gs)).length = (encodeField f).length + (encode gs).length :=
          List.length_append
        omega

theorem length_encode_of_decode {bs : List UInt8} {fs : List Field} (h : decode bs = some fs) :
    (encode fs).length ≤ bs.length :=
  length_encode_of_readFields h

/-- Some of the fields, each once, are no longer than all of them. -/
theorem length_encode_le_of_subset {fs gs : List Field} (hnodup : gs.Nodup) (h : gs ⊆ fs) :
    (encode gs).length ≤ (encode fs).length := by
  obtain ⟨hs, hperm, hsub⟩ := List.subperm_of_subset hnodup h
  rw [length_encode, length_encode, ← (hperm.map _).sum_eq]
  exact (hsub.map _).sum_le_sum fun _ _ => Nat.zero_le _

theorem getUint_eq_zero_or_mem (fields : List Field) (number : ℕ) :
    getUint fields number = 0 ∨ (number, .varint (getUint fields number)) ∈ fields := by
  unfold getUint
  refine List.foldlRecOn (motive := fun n => n = 0 ∨ (number, WireValue.varint n) ∈ fields) fields
    _ (Or.inl rfl) fun n hn f hf => ?_
  split
  · rename_i k m
    split_ifs with hk
    · rw [← hk]
      exact Or.inr hf
    · exact hn
  · exact hn

theorem uint_getUint_subset (fields : List Field) (number : ℕ) :
    uint number (getUint fields number) ⊆ fields := by
  unfold uint
  split_ifs with hzero
  · exact List.nil_subset _
  · have hmem := (getUint_eq_zero_or_mem fields number).resolve_left hzero
    exact List.cons_subset.2 ⟨hmem, List.nil_subset _⟩

theorem bytes_getBytes_subset (fields : List Field) (number : ℕ) :
    bytes number (getBytes fields number) ⊆ fields := by
  unfold bytes getBytes
  split_ifs with hempty
  · exact List.nil_subset _
  · cases hlast : (getRepeatedBytes fields number).getLast? with
    | none =>
      rw [List.getLastD_eq_getLast?, hlast] at hempty
      exact absurd rfl hempty
    | some b =>
      rw [List.getLastD_eq_getLast?, hlast]
      refine List.cons_subset.2 ⟨?_, List.nil_subset _⟩
      obtain ⟨⟨k, v⟩, hf, hb⟩ := List.mem_filterMap.1 (List.mem_of_getLast? hlast)
      cases v with
      | lengthDelimited c =>
        dsimp only at hb
        split_ifs at hb with hk
        cases hb
        rw [← hk]
        exact hf
      | varint | fixed64 | fixed32 => cases hb

end Protobuf

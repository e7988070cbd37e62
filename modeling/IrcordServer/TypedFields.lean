import IrcordServer.RoundTrip

/-!
# Typed fields behind each other

What the readers of typed fields find in a message that was put together from typed fields: of the
number and the wire type that they look for, whatever else there is.
-/

namespace Protobuf

/-- The contents of a byte field that is written only when it is not empty. -/
def present (b : List UInt8) : List (List UInt8) := if b.isEmpty then [] else [b]

section Reads

variable (fields : List Field) (k number n : ℕ) (b : List UInt8)

/-! ## Numbers -/

theorem getUint_append_uint :
    getUint (fields ++ uint k n) number =
      if k = number ∧ n ≠ 0 then n else getUint fields number := by
  unfold getUint uint
  rw [List.foldl_append]
  by_cases hn : n = 0
  · simp [hn]
  · by_cases hk : k = number <;> simp [hn, hk]

theorem getUint_append_bytes : getUint (fields ++ bytes k b) number = getUint fields number := by
  unfold getUint bytes
  rw [List.foldl_append]
  split_ifs <;> rfl

theorem getUint_bytes : getUint (bytes k b) number = 0 := getUint_append_bytes [] k number b

/-! ## Byte fields -/

theorem getRepeatedBytes_append_uint :
    getRepeatedBytes (fields ++ uint k n) number = getRepeatedBytes fields number := by
  unfold getRepeatedBytes uint
  rw [List.filterMap_append]
  split_ifs <;> simp

theorem getRepeatedBytes_append_bytes :
    getRepeatedBytes (fields ++ bytes k b) number =
      getRepeatedBytes fields number ++ if k = number then present b else [] := by
  unfold getRepeatedBytes bytes present
  rw [List.filterMap_append]
  cases b with
  | nil => simp
  | cons c b => by_cases hk : k = number <;> simp [hk]

theorem getRepeatedBytes_bytes :
    getRepeatedBytes (bytes k b) number = if k = number then present b else [] :=
  getRepeatedBytes_append_bytes [] k number b

end Reads

variable {fields : List Field} {number n : ℕ} {b : List UInt8}

theorem getBytes_of_present (h : getRepeatedBytes fields number = present b) :
    getBytes fields number = b := by
  unfold getBytes
  rw [h]
  cases b <;> rfl

/-- Text is read back; anything else is not accepted. -/
theorem getString_of_present (h : getRepeatedBytes fields number = present b)
    (htext : isUtf8 b = true) : getString fields number = some b := by
  unfold getString getRepeatedStrings
  rw [h]
  cases b with
  | nil => rfl
  | cons c b => simp [present, htext]

theorem getBool_eq (fields : List Field) (number : ℕ) :
    getBool fields number = (getUint fields number != 0) := rfl

/-! ## What can be written -/

/-- A byte field is no longer than the message it is in. -/
theorem length_le_encode (h : bytes number b ⊆ fields) : b.length ≤ (encode fields).length := by
  cases b with
  | nil => exact Nat.zero_le _
  | cons c b =>
    have hmem : (number, .lengthDelimited (c :: b)) ∈ fields := h (List.mem_singleton_self _)
    have hfield : (c :: b).length ≤ (encodeField (number, .lengthDelimited (c :: b))).length := by
      unfold encodeField WireValue.encode
      rw [List.length_append, List.length_append]
      omega
    have hsub : (encodeField (number, .lengthDelimited (c :: b))).Sublist (encode fields) :=
      List.sublist_flatten_of_mem (List.mem_map_of_mem hmem)
    exact hfield.trans hsub.length_le

theorem valid_bytes_of_subset (hlength : (encode fields).length < 2 ^ 64)
    (hnumber : 0 < number ∧ number < 2 ^ 29) (hsub : bytes number b ⊆ fields) :
    ∀ f ∈ bytes number b, Valid f :=
  valid_bytes hnumber ((length_le_encode hsub).trans_lt hlength)

end Protobuf

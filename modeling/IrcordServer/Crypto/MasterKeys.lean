import IrcordServer.Crypto.FileEncryptor
import Mathlib.Tactic.NormNum

/-!
# Master keys in hexadecimal

`hex_to_bytes` gives `std::stoi` two characters at a time.  That takes more than two digits: a digit
with anything behind it, and a blank or a sign before a digit.  The strings that are read as they
are written are those without such a pair, and those that another pair makes it reject.
-/

namespace Ircord

namespace FileEncryptor

variable {a b : UInt8} {hex : Str} {bytes : Bytes}

/-! ## Bytes as text -/

/-- A digit below 16, in lower case. -/
def hexChar (n : ℕ) : UInt8 := UInt8.ofNat (if n < 10 then 48 + n else 87 + n)

/-- `std::hex` with a width of two, filled with zeros. -/
def bytesToHex (bytes : Bytes) : Str :=
  bytes.flatMap fun b => [hexChar (b.toNat / 16), hexChar (b.toNat % 16)]

/-- `[0-9a-fA-F]`. -/
def isHexDigit (c : UInt8) : Bool :=
  isDigit c || (97 ≤ c && c ≤ 102) || (65 ≤ c && c ≤ 70)

theorem isHexDigit_eq (c : UInt8) : isHexDigit c = (hexDigit c).isSome :=
  forall_byte (P := fun c => isHexDigit c = (hexDigit c).isSome) (by decide +kernel) c

/-- A digit is written as it was read, in lower case. -/
theorem hexChar_of_hexDigit {n : ℤ} (h : hexDigit a = some n) :
    0 ≤ n ∧ n < 16 ∧ hexChar n.toNat = tolower a := by
  have hdigits := forall_byte
    (P := fun c => ∀ n ∈ hexDigit c, 0 ≤ n ∧ n < 16 ∧ hexChar n.toNat = tolower c)
    (by decide +kernel) a
  exact hdigits n h

theorem hexDigit_hexChar {n : ℕ} (h : n < 16) : hexDigit (hexChar n) = some (n : ℤ) := by
  have hdigits : ∀ n < 16, hexDigit (hexChar n) = some (n : ℤ) := by decide
  exact hdigits n h

/-! ## Pairs of characters -/

/-- The windows of two characters that are parsed. -/
def pairs : Str → List (UInt8 × UInt8)
  | a :: b :: hex => (a, b) :: pairs hex
  | _ => []

/-- The pair denotes a byte. -/
def Strict (p : UInt8 × UInt8) : Prop := isHexDigit p.1 = true ∧ isHexDigit p.2 = true

/-- `std::stoi` takes the pair for a number, of one digit only. -/
def Lenient (p : UInt8 × UInt8) : Prop :=
  isHexDigit p.1 = true ∧ isHexDigit p.2 = false ∨
    (isSpace p.1 || p.1 == ch '+' || p.1 == ch '-') = true ∧ isHexDigit p.2 = true

instance (p : UInt8 × UInt8) : Decidable (Strict p) := inferInstanceAs (Decidable (_ ∧ _))

instance (p : UInt8 × UInt8) : Decidable (Lenient p) := inferInstanceAs (Decidable (_ ∨ _))

theorem isSome_stoiHex_iff : (stoiHex a b).isSome = true ↔ Strict (a, b) ∨ Lenient (a, b) := by
  have hmark : (isSpace a || a == ch '+' || a == ch '-') = true → isHexDigit a = false :=
    forall_byte (P := fun c =>
      (isSpace c || c == ch '+' || c == ch '-') = true → isHexDigit c = false) (by decide +kernel) a
  unfold stoiHex Strict Lenient
  dsimp only
  rw [isHexDigit_eq, isHexDigit_eq] at *
  cases ha : hexDigit a with
  | some x => cases hb : hexDigit b <;> simp
  | none =>
    cases hb : hexDigit b with
    | none => simp
    | some y =>
      by_cases hplus : (isSpace a || a == ch '+') = true
      · simp [hplus]
      · by_cases hminus : (a == ch '-') = true <;> simp [hplus, hminus]

/-- A pair of digits is the byte that is written as this pair. -/
theorem bytesToHex_stoiHex (h : Strict (a, b)) {n : ℤ} (hn : stoiHex a b = some n) :
    bytesToHex [UInt8.ofInt n] = lowercase [a, b] := by
  obtain ⟨ha, hb⟩ := h
  rw [isHexDigit_eq, Option.isSome_iff_exists] at ha hb
  obtain ⟨x, hx⟩ := ha
  obtain ⟨y, hy⟩ := hb
  obtain ⟨hx₀, hx₁, hxa⟩ := hexChar_of_hexDigit hx
  obtain ⟨hy₀, hy₁, hyb⟩ := hexChar_of_hexDigit hy
  unfold stoiHex at hn
  rw [hx, hy] at hn
  cases hn
  have hbyte : (UInt8.ofInt (16 * x + y)).toNat = 16 * x.toNat + y.toNat := by
    show (UInt8.ofNat ((16 * x + y) % 2 ^ 8).toNat).toNat = _
    rw [UInt8.toNat_ofNat']
    omega
  have hhigh : (16 * x.toNat + y.toNat) / 16 = x.toNat := by omega
  have hlow : (16 * x.toNat + y.toNat) % 16 = y.toNat := by omega
  unfold bytesToHex lowercase
  simp only [List.flatMap_cons, List.flatMap_nil, List.append_nil, List.map_cons, List.map_nil]
  rw [hbyte, hhigh, hlow, hxa, hyb]

theorem stoiHex_bytesToHex (c : UInt8) :
    stoiHex (hexChar (c.toNat / 16)) (hexChar (c.toNat % 16)) = some (c.toNat : ℤ) := by
  have hlt := c.toNat_lt
  unfold stoiHex
  rw [hexDigit_hexChar (by omega), hexDigit_hexChar (by omega)]
  dsimp only
  have hsplit : 16 * ((c.toNat / 16 : ℕ) : ℤ) + ((c.toNat % 16 : ℕ) : ℤ) = c.toNat := by omega
  rw [hsplit]

/-! ## Strings -/

theorem hexToBytes_cons_eq_some {c : UInt8} :
    hexToBytes (a :: b :: hex) = some (c :: bytes) ↔
      (∃ n, stoiHex a b = some n ∧ UInt8.ofInt n = c) ∧ hexToBytes hex = some bytes := by
  rw [hexToBytes]
  cases stoiHex a b with
  | none => simp
  | some n => cases hexToBytes hex <;> simp

theorem hexToBytes_bytesToHex (bytes : Bytes) : hexToBytes (bytesToHex bytes) = some bytes := by
  induction bytes with
  | nil => rfl
  | cons c bytes ih =>
    refine hexToBytes_cons_eq_some.2 ⟨⟨c.toNat, stoiHex_bytesToHex c, ?_⟩, ih⟩
    have hlt := c.toNat_lt
    show UInt8.ofNat ((c.toNat : ℤ) % 2 ^ 8).toNat = c
    rw [Int.emod_eq_of_lt (by omega) (by omega), Int.toNat_natCast, UInt8.ofNat_toNat]

theorem isSome_hexToBytes_iff (hex : Str) : (hexToBytes hex).isSome = true ↔
    hex.length % 2 = 0 ∧ ∀ p ∈ pairs hex, Strict p ∨ Lenient p := by
  induction hex using hexToBytes.induct with
  | case1 => exact iff_of_true rfl ⟨rfl, fun p hp => absurd hp List.not_mem_nil⟩
  | case2 c => exact iff_of_false Bool.false_ne_true fun h => absurd h.1 (by simp)
  | case3 a b hex ih =>
    rw [hexToBytes, pairs, List.forall_mem_cons, ← isSome_stoiHex_iff]
    have hlength : (a :: b :: hex).length % 2 = hex.length % 2 := by
      rw [List.length_cons, List.length_cons]
      omega
    rw [hlength]
    cases stoiHex a b with
    | none => simp
    | some n =>
      cases hbytes : hexToBytes hex with
      | none =>
        rw [hbytes] at ih
        simpa using ih
      | some bytes =>
        rw [hbytes] at ih
        simpa using ih

theorem length_of_hexToBytes (h : hexToBytes hex = some bytes) : hex.length = 2 * bytes.length := by
  induction hex using hexToBytes.induct generalizing bytes with
  | case1 => cases h; rfl
  | case2 c => cases h
  | case3 a b hex ih =>
    cases bytes with
    | nil =>
      rw [hexToBytes] at h
      cases hn : stoiHex a b with
      | none => simp [hn] at h
      | some n => cases hr : hexToBytes hex <;> simp [hn, hr] at h
    | cons c bytes =>
      have hrest := ih (hexToBytes_cons_eq_some.1 h).2
      rw [List.length_cons, List.length_cons, List.length_cons]
      omega

/-- Of an even number of characters each is in a pair. -/
theorem forall_pairs_strict_iff (heven : hex.length % 2 = 0) :
    (∀ p ∈ pairs hex, Strict p) ↔ ∀ c ∈ hex, isHexDigit c = true := by
  induction hex using hexToBytes.induct with
  | case1 => simp [pairs]
  | case2 c => cases heven
  | case3 a b hex ih =>
    rw [List.length_cons, List.length_cons] at heven
    rw [pairs, List.forall_mem_cons, List.forall_mem_cons, List.forall_mem_cons, ih (by omega),
      Strict, and_assoc]

theorem bytesToHex_of_strict (hstrict : ∀ p ∈ pairs hex, Strict p)
    (h : hexToBytes hex = some bytes) : bytesToHex bytes = lowercase hex := by
  induction hex using hexToBytes.induct generalizing bytes with
  | case1 => cases h; rfl
  | case2 c => cases h
  | case3 a b hex ih =>
    rw [pairs, List.forall_mem_cons] at hstrict
    cases bytes with
    | nil =>
      have hlength := length_of_hexToBytes h
      cases hlength
    | cons c bytes =>
      obtain ⟨⟨n, hn, rfl⟩, hrest⟩ := hexToBytes_cons_eq_some.1 h
      have hfirst := bytesToHex_stoiHex hstrict.1 hn
      have hbytes := ih hstrict.2 hrest
      calc bytesToHex (UInt8.ofInt n :: bytes)
          = bytesToHex [UInt8.ofInt n] ++ bytesToHex bytes := List.flatMap_cons
        _ = lowercase [a, b] ++ lowercase hex := by rw [hfirst, hbytes]
        _ = lowercase (a :: b :: hex) := rfl

theorem lowercase_lowercase (s : Str) : lowercase (lowercase s) = lowercase s := by
  have htwice := forall_byte (P := fun c => tolower (tolower c) = tolower c) (by decide +kernel)
  unfold lowercase
  rw [List.map_map]
  exact List.map_congr_left fun c _ => htwice c

/-! ## What is accepted -/

/-- The string is accepted only if it is hexadecimal, and then for the bytes that it denotes, so
that a master key has 64 digits. -/
structure ReadExactly (hex : Str) : Prop where
  accepts : (hexToBytes hex).isSome = true ↔
    hex.length % 2 = 0 ∧ ∀ c ∈ hex, isHexDigit c = true
  denotes : ∀ bytes, hexToBytes hex = some bytes → lowercase (bytesToHex bytes) = lowercase hex
  key : (new hex).isReady = true → hex.length = 64 ∧ ∀ c ∈ hex, isHexDigit c = true

/-- The string is rejected, or has no pair that `std::stoi` takes for less than it is. -/
def NothingSkipped (hex : Str) : Prop :=
  hex.length % 2 = 1 ∨ (∃ p ∈ pairs hex, ¬ Strict p ∧ ¬ Lenient p) ∨ ∀ p ∈ pairs hex, Strict p

theorem hexToBytes_of_isReady (h : (new hex).isReady = true) :
    ∃ bytes, hexToBytes hex = some bytes ∧ bytes.length = 32 := by
  unfold new at h
  split at h
  · cases h
  · rename_i bytes hbytes
    split_ifs at h with hlength
    · cases h
    · exact ⟨bytes, hbytes, not_not.1 hlength⟩

theorem readExactly_of_accepts (h : (hexToBytes hex).isSome = true →
    ∀ p ∈ pairs hex, Strict p) : ReadExactly hex := by
  have haccepts : (hexToBytes hex).isSome = true ↔
      hex.length % 2 = 0 ∧ ∀ c ∈ hex, isHexDigit c = true := by
    constructor
    · intro hsome
      have heven := ((isSome_hexToBytes_iff hex).1 hsome).1
      exact ⟨heven, (forall_pairs_strict_iff heven).1 (h hsome)⟩
    · rintro ⟨heven, hdigits⟩
      refine (isSome_hexToBytes_iff hex).2 ⟨heven, fun p hp => Or.inl ?_⟩
      exact (forall_pairs_strict_iff heven).2 hdigits p hp
  refine ⟨haccepts, fun bytes hbytes => ?_, fun hready => ?_⟩
  · have hstrict := h (Option.isSome_iff_exists.2 ⟨bytes, hbytes⟩)
    rw [bytesToHex_of_strict hstrict hbytes, lowercase_lowercase]
  · obtain ⟨bytes, hbytes, hlength⟩ := hexToBytes_of_isReady hready
    have hsome := Option.isSome_iff_exists.2 ⟨bytes, hbytes⟩
    refine ⟨?_, (haccepts.1 hsome).2⟩
    rw [length_of_hexToBytes hbytes, hlength]

theorem readExactly_iff (hex : Str) : ReadExactly hex ↔ NothingSkipped hex := by
  constructor
  · intro h
    rcases Nat.mod_two_eq_zero_or_one hex.length with heven | hodd
    · by_cases hrejected : ∃ p ∈ pairs hex, ¬ Strict p ∧ ¬ Lenient p
      · exact Or.inr (Or.inl hrejected)
      · have htaken : ∀ p ∈ pairs hex, Strict p ∨ Lenient p := by
          intro p hp
          by_contra hneither
          exact hrejected ⟨p, hp, not_or.1 hneither⟩
        have hsome := (isSome_hexToBytes_iff hex).2 ⟨heven, htaken⟩
        exact Or.inr (Or.inr ((forall_pairs_strict_iff heven).2 (h.accepts.1 hsome).2))
    · exact Or.inl hodd
  · intro h
    refine readExactly_of_accepts fun hsome => ?_
    obtain ⟨heven, htaken⟩ := (isSome_hexToBytes_iff hex).1 hsome
    rcases h with hodd | ⟨p, hp, hstrict, hlenient⟩ | hstrict
    · omega
    · exact ((htaken p hp).elim hstrict hlenient).elim
    · exact hstrict

/-- Bytes are read back from what is written for them; and a string is read exactly if and only if
nothing of it is skipped. -/
theorem hex_read_exactly_iff (bytes : Bytes) (hex : Str) :
    hexToBytes (bytesToHex bytes) = some bytes ∧ (ReadExactly hex ↔ NothingSkipped hex) :=
  ⟨hexToBytes_bytesToHex bytes, readExactly_iff hex⟩

/-- A master key of 64 characters, the second of which is a letter `O`. -/
def mistypedKey : Str := str "1O" ++ (List.replicate 31 (str "01")).flatten

/-- The mistyped key is taken for another one. -/
theorem not_readExactly_mistypedKey : ¬ ReadExactly mistypedKey := by
  intro h
  have hready : (new mistypedKey).isReady = true := by decide +kernel
  have hdigit := (h.key hready).2 (ch 'O') (by decide +kernel)
  exact absurd hdigit (by decide)

end FileEncryptor

end Ircord

import Mathlib.Algebra.Group.Int.Defs
import Mathlib.Algebra.Group.Nat.Defs
import Mathlib.Data.List.TakeWhile
import IrcordServer.Text

/-!
# Decimal numbers

`std::stoi`, and what it reads where `std::to_string` or an output stream has written a number.
-/

namespace Ircord

/-! ## `std::stoi` -/

/-- The number with these decimal digits. -/
def digitsValue (digits : Str) : ℕ := digits.foldl (fun n c => 10 * n + (c.toNat - 48)) 0

/-- Whether a minus stands in front of the number, and the text behind the sign. -/
def splitSign : Str → Bool × Str
  | [] => (false, [])
  | c :: cs =>
    if c = ch '-' then (true, cs) else if c = ch '+' then (false, cs) else (false, c :: cs)

/-- `std::stoi`: blanks, a sign and digits, and whatever follows them; `none` where it throws. -/
def stoi (s : Str) : Option ℤ :=
  let (negative, rest) := splitSign (s.dropWhile isSpace)
  let digits := rest.takeWhile isDigit
  if digits.isEmpty then none
  else
    let value : ℤ := if negative then -digitsValue digits else digitsValue digits
    if -2 ^ 31 ≤ value ∧ value < 2 ^ 31 then some value else none

/-- Digits are read as the number they denote. -/
theorem stoi_of_digits {digits : Str} (hne : digits ≠ [])
    (hdigits : ∀ c ∈ digits, isDigit c = true) (hrange : digitsValue digits < 2 ^ 31) :
    stoi digits = some (digitsValue digits : ℤ) := by
  have hclass : ∀ c : UInt8, isDigit c = true → isSpace c = false ∧ c ≠ ch '-' ∧ c ≠ ch '+' :=
    forall_byte (by decide +kernel)
  cases digits with
  | nil => exact absurd rfl hne
  | cons c cs =>
    obtain ⟨hspace, hminus, hplus⟩ := hclass c (hdigits c List.mem_cons_self)
    have hall : (c :: cs).takeWhile isDigit = c :: cs := List.takeWhile_eq_self_iff.2 hdigits
    unfold stoi
    rw [List.dropWhile_cons_of_neg (by simp [hspace]), splitSign, if_neg hminus, if_neg hplus]
    simp only [hall, List.isEmpty_cons, Bool.false_eq_true, if_false]
    rw [if_pos (by omega)]

/-! ## Numbers as they are written -/

/-- A digit as a character. -/
def digitChar (d : ℕ) : UInt8 := .ofNat (48 + d)

theorem isDigit_digitChar {d : ℕ} (hd : d < 10) : isDigit (digitChar d) = true := by
  revert hd
  revert d
  decide

theorem toNat_digitChar {d : ℕ} (hd : d < 10) : (digitChar d).toNat = 48 + d := by
  revert hd
  revert d
  decide

/-- A number is written with its last digit at the end. -/
theorem toStr_eq (n : ℕ) :
    toStr n = if n < 10 then [digitChar n] else toStr (n / 10) ++ [digitChar (n % 10)] := by
  have hch : ∀ d < 10, ch (Nat.digitChar d) = digitChar d := by decide
  unfold toStr str
  rw [Nat.toString_eq_repr, Nat.toString_eq_repr, Nat.toList_repr, Nat.toList_repr,
    Nat.toDigits_eq_if (by decide)]
  split_ifs with hn
  · rw [List.map_singleton, hch n hn]
  · rw [List.map_append, List.map_singleton, hch (n % 10) (Nat.mod_lt n (by decide))]

theorem isDigit_of_mem_toStr {n : ℕ} {c : UInt8} (hc : c ∈ toStr n) : isDigit c = true := by
  induction n using Nat.strongRecOn generalizing c with
  | ind n ih =>
    rw [toStr_eq] at hc
    split_ifs at hc with hn
    · rw [List.mem_singleton.1 hc]
      exact isDigit_digitChar hn
    · rcases List.mem_append.1 hc with hc | hc
      · exact ih (n / 10) (by omega) hc
      · rw [List.mem_singleton.1 hc]
        exact isDigit_digitChar (Nat.mod_lt n (by omega))

theorem toStr_ne_nil (n : ℕ) : toStr n ≠ [] := by
  rw [toStr_eq]
  split_ifs <;> simp

/-- No number but zero begins with a zero. -/
theorem head_toStr {n : ℕ} {c : UInt8} {cs : Str} (hn : n ≠ 0) (hcons : toStr n = c :: cs) :
    c ≠ ch '0' := by
  induction n using Nat.strongRecOn generalizing cs with
  | ind n ih =>
    rw [toStr_eq] at hcons
    split_ifs at hcons with hsmall
    · obtain ⟨rfl, -⟩ := List.cons.inj hcons
      intro hzero
      have hnat := congrArg UInt8.toNat hzero
      rw [toNat_digitChar hsmall, show (ch '0').toNat = 48 by decide] at hnat
      omega
    · cases hrest : toStr (n / 10) with
      | nil => exact absurd hrest (toStr_ne_nil _)
      | cons d ds =>
        rw [hrest] at hcons
        obtain ⟨rfl, -⟩ := List.cons.inj hcons
        exact ih (n / 10) (by omega) (by omega) hrest

end Ircord

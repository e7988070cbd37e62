import Mathlib.Data.List.TakeDrop
import Mathlib.Data.Nat.Notation
import Mathlib.Tactic.Ring

/-!
# Byte arrays of a fixed size

Arrays as `memcpy` fills them from a longer or a shorter buffer, and numbers as a little-endian
machine stores them.
-/

abbrev Octets (n : ℕ) := { b : List UInt8 // b.length = n }

namespace Octets

variable {n : ℕ} {b : List UInt8}

/-- The first `n` bytes of the buffer, with zeros where it has none. -/
def copy (n : ℕ) (b : List UInt8) : Octets n := ⟨b.takeD n 0, List.takeD_length n b 0⟩

theorem val_copy_of_le (h : n ≤ b.length) : (copy n b).1 = b.take n := List.takeD_eq_take 0 h

theorem copy_append (o : Octets n) (b : List UInt8) : copy n (o.1 ++ b) = o :=
  Subtype.ext (List.takeD_left' o.2)

theorem copy_val (o : Octets n) : copy n o.1 = o := by
  have h := copy_append o []
  rwa [List.append_nil] at h

theorem drop_append (o : Octets n) (b : List UInt8) : (o.1 ++ b).drop n = b :=
  List.drop_left' o.2

theorem takeD_eq_append {α : Type} (a : α) (l : List α) (n : ℕ) (h : l.length ≤ n) :
    l.takeD n a = l ++ List.replicate (n - l.length) a := by
  induction l generalizing n with
  | nil => rw [List.takeD_nil, List.nil_append, List.length_nil, Nat.sub_zero]
  | cons c l ih =>
    cases n with
    | zero => exact absurd h (Nat.not_succ_le_zero _)
    | succ n =>
      have hl : l.length ≤ n := Nat.le_of_succ_le_succ h
      rw [List.length_cons, Nat.succ_sub_succ, List.cons_append, ← ih n hl]
      rfl

/-- A longer array that starts with the bytes of a shorter one has zeros behind them. -/
theorem val_copy_of_ge {m : ℕ} (o : Octets m) (h : m ≤ n) :
    (copy n o.1).1 = o.1 ++ List.replicate (n - m) 0 := by
  show o.1.takeD n 0 = _
  rw [takeD_eq_append 0 o.1 n (o.2.le.trans h), o.2]

/-! ## Numbers -/

/-- The `n` low bytes of a number, the lowest one first. -/
def littleEndian : (n : ℕ) → ℕ → List UInt8
  | 0, _ => []
  | n + 1, v => UInt8.ofNat v :: littleEndian n (v / 256)

def ofLittleEndian (b : List UInt8) : ℕ := b.foldr (fun c v => c.toNat + 256 * v) 0

theorem length_littleEndian (n v : ℕ) : (littleEndian n v).length = n := by
  induction n generalizing v with
  | zero => rfl
  | succ n ih => rw [littleEndian, List.length_cons, ih]

def ofNat (n v : ℕ) : Octets n := ⟨littleEndian n v, length_littleEndian n v⟩

theorem ofLittleEndian_ofNat (n v : ℕ) : ofLittleEndian (ofNat n v).1 = v % 256 ^ n := by
  show ofLittleEndian (littleEndian n v) = v % 256 ^ n
  induction n generalizing v with
  | zero => rw [Nat.pow_zero, Nat.mod_one]; rfl
  | succ n ih =>
    have hbyte : (UInt8.ofNat v).toNat = v % 256 := UInt8.toNat_ofNat'
    have hrest : ofLittleEndian (littleEndian n (v / 256)) = v / 256 % 256 ^ n := ih (v / 256)
    show (UInt8.ofNat v).toNat + 256 * ofLittleEndian (littleEndian n (v / 256)) = _
    rw [hbyte, hrest, pow_succ', Nat.mod_mul]

theorem ofLittleEndian_lt (b : List UInt8) : ofLittleEndian b < 256 ^ b.length := by
  induction b with
  | nil => exact Nat.one_pos
  | cons c b ih =>
    have hbyte : c.toNat < 256 := c.toNat_lt
    show c.toNat + 256 * ofLittleEndian b < 256 ^ (b.length + 1)
    rw [pow_succ']
    omega

/-- The bytes of a number determine it, and it determines them. -/
theorem littleEndian_ofLittleEndian (b : List UInt8) :
    littleEndian b.length (ofLittleEndian b) = b := by
  induction b with
  | nil => rfl
  | cons c b ih =>
    have hbyte : c.toNat < 256 := c.toNat_lt
    show UInt8.ofNat (c.toNat + 256 * ofLittleEndian b) ::
      littleEndian b.length ((c.toNat + 256 * ofLittleEndian b) / 256) = c :: b
    have hrest : (c.toNat + 256 * ofLittleEndian b) / 256 = ofLittleEndian b := by omega
    have hfirst : UInt8.ofNat (c.toNat + 256 * ofLittleEndian b) = c := by
      refine UInt8.toNat_inj.1 (UInt8.toNat_ofNat'.trans ?_)
      omega
    rw [hrest, ih, hfirst]

end Octets

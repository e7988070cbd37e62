import Mathlib.Data.List.TakeDrop

/-!
# Cutting a list into pieces

A list is cut into pieces of one length, the last of which may be shorter.
-/

namespace Pieces

variable {α : Type} {c n k : ℕ} {l : List α}

/-- The piece at `i`, when a piece has `c` elements. -/
def piece (c : ℕ) (l : List α) (i : ℕ) : List α := (l.drop (i * c)).take c

/-- The number of pieces of a list with `n` elements. -/
def count (c n : ℕ) : ℕ := (n + c - 1) / c

theorem count_le_iff (hc : 0 < c) : count c n ≤ k ↔ n ≤ k * c := by
  unfold count
  rw [Nat.div_le_iff_le_mul hc]
  omega

theorem lt_count_iff (hc : 0 < c) : k < count c n ↔ k * c < n := by
  rw [← Nat.not_le, count_le_iff hc, Nat.not_le]

theorem count_pos (hc : 0 < c) (hn : 0 < n) : 0 < count c n :=
  (lt_count_iff hc).2 (by rwa [Nat.zero_mul])

theorem count_le (hc : 0 < c) : count c n ≤ n :=
  (count_le_iff hc).2 (Nat.le_mul_of_pos_right n hc)

/-- Only the pieces that count have elements. -/
theorem lt_count_of_piece_ne_nil (hc : 0 < c) (h : piece c l k ≠ []) : k < count c l.length := by
  rw [lt_count_iff hc]
  by_contra hle
  refine h ?_
  rw [piece, List.drop_eq_nil_of_le (Nat.not_lt.1 hle), List.take_nil]

theorem flatMap_piece (c k : ℕ) (l : List α) :
    (List.range k).flatMap (piece c l) = l.take (k * c) := by
  induction k with
  | zero => rw [Nat.zero_mul]; rfl
  | succ k ih =>
    rw [List.range_succ, List.flatMap_append, ih, List.flatMap_singleton, Nat.succ_mul,
      List.take_add]
    rfl

/-- The first `k` pieces are the list when there are no others. -/
theorem flatMap_piece_eq_iff (hc : 0 < c) :
    (List.range k).flatMap (piece c l) = l ↔ count c l.length ≤ k := by
  rw [flatMap_piece, List.take_eq_self_iff, count_le_iff hc]

end Pieces

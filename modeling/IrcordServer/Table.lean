import Mathlib.Data.List.Nodup
import Mathlib.Data.List.Pairwise
import Mathlib.Data.Nat.Notation
import Mathlib.Tactic.SplitIfs

/-!
# Tables with an automatic row number

A table whose rows are numbered by a counter that never goes back, as an SQL table with an
`INTEGER PRIMARY KEY AUTOINCREMENT` column.  The rows are kept in the order of their numbers, so
that a scan visits them oldest first.
-/

namespace Sql

/-- Rows with strictly increasing numbers, none above the last number given out. -/
structure Table (ρ : Type) where
  rows : List (ℕ × ρ)
  seq : ℕ
  sorted : rows.Pairwise fun r r' => r.1 < r'.1
  le_seq : ∀ r ∈ rows, r.1 ≤ seq
  deriving DecidableEq

namespace Table

variable {ρ : Type}

instance : EmptyCollection (Table ρ) :=
  ⟨⟨[], 0, List.Pairwise.nil, fun _ h => absurd h List.not_mem_nil⟩⟩

/-- `INSERT`: the new row is numbered one above every row there ever was. -/
def insert (t : Table ρ) (r : ρ) : Table ρ where
  rows := t.rows ++ [(t.seq + 1, r)]
  seq := t.seq + 1
  sorted := by
    refine List.pairwise_append.2 ⟨t.sorted, List.pairwise_singleton _ _, fun a ha b hb => ?_⟩
    rw [List.mem_singleton.1 hb]
    exact Nat.lt_succ_of_le (t.le_seq a ha)
  le_seq r' hr' := by
    rcases List.mem_append.1 hr' with h | h
    · exact Nat.le_succ_of_le (t.le_seq r' h)
    · exact (List.mem_singleton.1 h) ▸ Nat.le_refl _

/-- `DELETE … WHERE NOT keep`. -/
def retain (t : Table ρ) (keep : ℕ × ρ → Bool) : Table ρ where
  rows := t.rows.filter keep
  seq := t.seq
  sorted := t.sorted.filter keep
  le_seq r hr := t.le_seq r (List.mem_filter.1 hr).1

/-- `UPDATE … WHERE id = n`. -/
def update (t : Table ρ) (n : ℕ) (f : ρ → ρ) : Table ρ where
  rows := t.rows.map fun r => if r.1 = n then (r.1, f r.2) else r
  seq := t.seq
  sorted := by
    refine List.pairwise_map.2 (t.sorted.imp fun {a b} h => ?_)
    split_ifs <;> exact h
  le_seq r hr := by
    obtain ⟨r', hr', rfl⟩ := List.mem_map.1 hr
    split_ifs <;> exact t.le_seq r' hr'

/-- The rows of `t` that `t'` does not have, or not as they are in `t`. -/
def minus [DecidableEq ρ] (t t' : Table ρ) : List (ℕ × ρ) :=
  t.rows.filter fun r => decide (r ∉ t'.rows)

theorem mem_insert {t : Table ρ} {r : ρ} {x : ℕ × ρ} :
    x ∈ (t.insert r).rows ↔ x ∈ t.rows ∨ x = (t.seq + 1, r) := by
  rw [insert, List.mem_append, List.mem_singleton]

theorem mem_retain {t : Table ρ} {keep : ℕ × ρ → Bool} {x : ℕ × ρ} :
    x ∈ (t.retain keep).rows ↔ x ∈ t.rows ∧ keep x :=
  List.mem_filter

theorem mem_update {t : Table ρ} {n : ℕ} {f : ρ → ρ} {x : ℕ × ρ} (h : x ∈ (t.update n f).rows) :
    ∃ y ∈ t.rows, x.1 = y.1 ∧ (x.2 = y.2 ∨ x.2 = f y.2) := by
  obtain ⟨y, hy, rfl⟩ := List.mem_map.1 h
  refine ⟨y, hy, ?_⟩
  split_ifs
  · exact ⟨rfl, Or.inr rfl⟩
  · exact ⟨rfl, Or.inl rfl⟩

theorem nodup_numbers (t : Table ρ) : (t.rows.map (·.1)).Nodup :=
  List.pairwise_map.2 (t.sorted.imp fun h => Nat.ne_of_lt h)

/-- A number stands for one row. -/
theorem eq_of_number {t : Table ρ} {x y : ℕ × ρ} (hx : x ∈ t.rows) (hy : y ∈ t.rows)
    (h : x.1 = y.1) : x = y :=
  List.inj_on_of_nodup_map t.nodup_numbers hx hy h

/-! ## What a statement changed -/

section Minus

variable [DecidableEq ρ] {t t' : Table ρ}

theorem mem_minus {x : ℕ × ρ} : x ∈ t.minus t' ↔ x ∈ t.rows ∧ x ∉ t'.rows := by
  rw [minus, List.mem_filter, decide_eq_true_eq]

theorem minus_self : t.minus t = [] :=
  List.filter_eq_nil_iff.2 fun x hx => by simpa using hx

/-- The row that was inserted. -/
theorem minus_insert (r : ρ) : (t.insert r).minus t = [(t.seq + 1, r)] := by
  have hnew : (t.seq + 1, r) ∉ t.rows := fun h => Nat.not_succ_le_self _ (t.le_seq _ h)
  show (t.rows ++ [(t.seq + 1, r)]).filter _ = _
  rw [List.filter_append]
  have hold : t.rows.filter (fun x => decide (x ∉ t.rows)) = [] := t.minus_self
  rw [hold, List.nil_append, List.filter_singleton, decide_eq_true hnew]
  rfl

/-- The row that was updated. -/
theorem minus_update {n : ℕ} {f : ρ → ρ} {r : ρ} (hr : (n, r) ∈ t.rows) (hf : f r ≠ r) :
    t.minus (t.update n f) = [(n, r)] := by
  have hchanged : ∀ x ∈ t.rows, decide (x ∉ (t.update n f).rows) = decide (x = (n, r)) := by
    intro x hx
    rw [decide_eq_decide]
    constructor
    · intro hgone
      by_contra hne
      have hn : x.1 ≠ n := fun e => hne (eq_of_number hx hr e)
      exact hgone (List.mem_map.2 ⟨x, hx, if_neg hn⟩)
    · rintro rfl hmem
      obtain ⟨y, hy, e⟩ := List.mem_map.1 hmem
      by_cases hn : y.1 = n
      · rw [if_pos hn, eq_of_number hy hr hn] at e
        exact hf (Prod.mk.inj e).2
      · rw [if_neg hn] at e
        exact hn (congrArg Prod.fst e)
  have hcount : t.rows.count (n, r) = 1 :=
    List.count_eq_one_of_mem (List.Nodup.of_map _ t.nodup_numbers) hr
  rw [minus, List.filter_congr hchanged, List.filter_eq, hcount]
  rfl

end Minus

end Table

end Sql

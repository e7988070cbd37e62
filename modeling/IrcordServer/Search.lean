import Mathlib.Data.List.Basic

/-!
# The first occurrence of a pattern

A search from left to right, and what it finds in a text that is put together from parts.
-/

namespace Search

variable {α : Type} [DecidableEq α] {pat pre rest s : List α} {n : ℕ}

/-- Where the pattern begins first. -/
def find (pat : List α) : List α → Option ℕ
  | [] => if pat = [] then some 0 else none
  | c :: cs => if pat <+: c :: cs then some 0 else (find pat cs).map (· + 1)

/-- The search from a position on. -/
def findFrom (pat s : List α) (pos : ℕ) : Option ℕ :=
  if pos ≤ s.length then (find pat (s.drop pos)).map (· + pos) else none

theorem find_of_prefix (h : pat <+: s) : find pat s = some 0 := by
  cases s with
  | nil => rw [find, if_pos (List.prefix_nil.1 h)]
  | cons c s => rw [find, if_pos h]

/-- In front of its first occurrence the pattern is not found. -/
theorem find_append (hpre : ∀ k < pre.length, ¬ pat <+: (pre ++ rest).drop k) :
    find pat (pre ++ rest) = (find pat rest).map (· + pre.length) := by
  induction pre with
  | nil => simp
  | cons c pre ih =>
    have hhead : ¬ pat <+: c :: (pre ++ rest) := hpre 0 (Nat.succ_pos _)
    have htail := ih fun k hk => hpre (k + 1) (Nat.succ_lt_succ hk)
    rw [List.cons_append, find, if_neg hhead, htail, Option.map_map]
    rfl

/-- A pattern does not begin where its first element is not. -/
theorem find_cons_append {c : α} (hpre : ∀ d ∈ pre, d ≠ c) :
    find (c :: pat) (pre ++ rest) = (find (c :: pat) rest).map (· + pre.length) := by
  apply find_append
  intro k hk hbegins
  rw [List.drop_append_of_le_length (Nat.le_of_lt hk), List.drop_eq_getElem_cons hk,
    List.cons_append, List.cons_prefix_cons] at hbegins
  exact hpre _ (List.getElem_mem hk) hbegins.1.symm

/-- The first occurrence of one element. -/
theorem find_singleton {c : α} (hpre : ∀ d ∈ pre, d ≠ c) :
    find [c] (pre ++ c :: rest) = some pre.length := by
  have hhere : find [c] (c :: rest) = some 0 := find_of_prefix (List.prefix_append [c] rest)
  rw [find_cons_append hpre, hhere, Option.map_some, Nat.zero_add]

omit [DecidableEq α] in
/-- A pattern without the separator ends in front of it. -/
theorem prefix_of_prefix_append_cons {c : α} (hc : c ∉ pat) (h : pat <+: pre ++ c :: rest) :
    pat <+: pre := by
  induction pre generalizing pat with
  | nil =>
    cases pat with
    | nil => exact List.nil_prefix
    | cons d pat =>
      obtain ⟨rfl, -⟩ := List.cons_prefix_cons.1 h
      exact absurd List.mem_cons_self hc
  | cons d pre ih =>
    cases pat with
    | nil => exact List.nil_prefix
    | cons e pat =>
      obtain ⟨rfl, htail⟩ := List.cons_prefix_cons.1 h
      have hinside := ih (fun hmem => hc (List.mem_cons_of_mem e hmem)) htail
      exact List.cons_prefix_cons.2 ⟨rfl, hinside⟩

/-- A part without the pattern is skipped when something follows it that is not in the pattern. -/
theorem find_append_cons {c : α} (hc : c ∉ pat) (hpre : ¬ pat <:+: pre) :
    find pat (pre ++ c :: rest) = (find pat rest).map (· + (pre.length + 1)) := by
  have hskip : ∀ k < (pre ++ [c]).length, ¬ pat <+: (pre ++ [c] ++ rest).drop k := by
    intro k hk hbegins
    have hle : k ≤ pre.length := by
      rw [List.length_append] at hk
      exact Nat.lt_succ_iff.1 hk
    rw [List.append_assoc, List.drop_append_of_le_length hle] at hbegins
    have hinside := prefix_of_prefix_append_cons hc hbegins
    exact hpre (hinside.isInfix.trans (List.drop_suffix k pre).isInfix)
  have hfind := find_append hskip
  rwa [List.append_assoc, List.length_append] at hfind

/-- The first occurrence of one element behind the first part. -/
theorem findFrom_singleton {mid : List α} {c : α} (hs : s = pre ++ (mid ++ c :: rest))
    (hlength : pre.length = n) (hmid : ∀ d ∈ mid, d ≠ c) :
    findFrom [c] s n = some (n + mid.length) := by
  rw [hs, ← hlength, findFrom, if_pos (by simp), List.drop_left, find_singleton hmid,
    Option.map_some, Nat.add_comm]

end Search

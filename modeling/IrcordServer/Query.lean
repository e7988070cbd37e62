import Mathlib.Algebra.BigOperators.Finprod
import IrcordServer.Container

/-!
# Queries

A query with a condition, an order and a limit, and one that sums a column, each in terms that do
not depend on the order in which the rows are visited.
-/

open Container

namespace Sql

section Select

variable {α : Type}

/-- `SELECT … WHERE p ORDER BY le LIMIT limit`; a negative limit is none. -/
def select (p : α → Bool) (le : α → α → Bool) (limit : ℤ) (rows : List α) : List α :=
  let sorted := (rows.filter p).mergeSort le
  if limit < 0 then sorted else sorted.take limit.toNat

/-- The first of the rows, in the order `le`, that satisfy `p`: only when there are as many as the
limit says is one left out, and then none of the others comes after it. -/
structure FirstRows (p : α → Bool) (le : α → α → Bool) (limit : ℤ) (rows : Set α)
    (result : List α) : Prop where
  sound : ∀ r ∈ result, r ∈ rows ∧ p r = true
  nodup : result.Nodup
  ordered : result.Pairwise fun r r' => le r r' = true
  within : 0 ≤ limit → (result.length : ℤ) ≤ limit
  complete : ∀ r ∈ rows, p r = true → r ∉ result →
    (result.length : ℤ) = limit ∧ ∀ r' ∈ result, le r' r = true

variable {p : α → Bool} {le : α → α → Bool} {rows : List α}

theorem firstRows_select (htrans : ∀ a b c, le a b → le b c → le a c)
    (htotal : ∀ a b, le a b || le b a) (hnodup : rows.Nodup) (limit : ℤ) :
    FirstRows p le limit {r | r ∈ rows} (select p le limit rows) := by
  obtain ⟨sorted, hsorted⟩ : ∃ sorted, sorted = (rows.filter p).mergeSort le := ⟨_, rfl⟩
  have hmem : ∀ r, r ∈ sorted ↔ r ∈ rows ∧ p r = true := fun r => by
    rw [hsorted, List.mem_mergeSort, List.mem_filter]
  have hord : sorted.Pairwise fun r r' => le r r' = true := by
    rw [hsorted]
    exact List.pairwise_mergeSort htrans htotal _
  have hnd : sorted.Nodup := by
    rw [hsorted]
    exact (List.mergeSort_perm _ le).nodup_iff.2 (hnodup.filter p)
  have hselect : select p le limit rows = if limit < 0 then sorted else
      sorted.take limit.toNat := by
    rw [hsorted]
    rfl
  rw [hselect]
  split_ifs with hlimit
  · exact
      { sound := fun r hr => (hmem r).1 hr
        nodup := hnd
        ordered := hord
        within := fun h => absurd hlimit (not_lt.2 h)
        complete := fun r hr hp hout => absurd ((hmem r).2 ⟨hr, hp⟩) hout }
  · have hsub := List.take_sublist limit.toNat sorted
    refine
      { sound := fun r hr => (hmem r).1 (hsub.subset hr)
        nodup := hnd.sublist hsub
        ordered := hord.sublist hsub
        within := fun _ => ?_
        complete := fun r hr hp hout => ?_ }
    · rw [List.length_take]
      omega
    · -- a row that is left out stands behind the limit
      have hdrop : r ∈ sorted.drop limit.toNat := by
        have hr' := (hmem r).2 ⟨hr, hp⟩
        rw [← List.take_append_drop limit.toNat sorted, List.mem_append] at hr'
        exact hr'.resolve_left hout
      constructor
      · have hlong := List.length_pos_of_mem hdrop
        rw [List.length_drop] at hlong
        rw [List.length_take]
        omega
      · intro r' hr'
        rw [← List.take_append_drop limit.toNat sorted, List.pairwise_append] at hord
        exact hord.2.2 r' hr' r hdrop

end Select

section Sum

variable {κ ν : Type} [DecidableEq κ]

/-- The sum over the entries is one over the keys. -/
theorem total_eq_finsum (f : κ → ν → ℕ) (m : UnorderedMap κ ν) :
    UnorderedMap.total f m = ∑ᶠ k, ((m.lookup k).map (f k)).getD 0 := by
  induction m using AList.insertRec with
  | H0 => simp [UnorderedMap.total]
  | IH a v m ha ih =>
    have hnone : m.lookup a = none := AList.lookup_eq_none.2 ha
    have hsplit : ∀ k, (((m.insert a v).lookup k).map (f k)).getD 0 =
        (if k = a then f a v else 0) + ((m.lookup k).map (f k)).getD 0 := by
      intro k
      rw [UnorderedMap.lookup_insert_ite]
      split_ifs with hk
      · rw [hk, hnone]
        rfl
      · exact (Nat.zero_add _).symm
    have herase : UnorderedMap.total f (m.erase a) = UnorderedMap.total f m := by
      rw [UnorderedMap.total_eq_add_erase f m a, hnone]
      exact (Nat.zero_add _).symm
    rw [UnorderedMap.total_insert, herase, ih, finsum_congr hsplit, finsum_add_distrib]
    · congr 1
      rw [finsum_eq_single _ a fun k hk => if_neg hk, if_pos rfl]
    · refine (Set.finite_singleton a).subset fun k hk => ?_
      by_contra hne
      exact hk (if_neg hne)
    · refine (List.finite_toSet m.keys).subset fun k hk => ?_
      by_contra hne
      refine hk ?_
      have hk' : m.lookup k = none := AList.lookup_eq_none.2 hne
      dsimp only
      rw [hk']
      rfl

end Sum

end Sql

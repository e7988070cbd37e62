import Mathlib.Algebra.GroupWithZero.Nat
import Mathlib.Data.List.Basic
import Mathlib.Data.List.Nodup
import Mathlib.Data.List.Perm.Basic
import Mathlib.Order.Basic

/-!
# Blocks written piece by piece

Several blocks are written to one stream, each in pieces, and the writer of a piece may be any that
is not done.  Every item on the stream is kept with the number of its block.  The blocks stay whole
if nothing is written while another block is begun and not done, and only then.
-/

/-- The blocks so far, and the stream. -/
structure Weave (α : Type) where
  blocks : List (List α)
  stream : List (ℕ × α)

namespace Weave

variable {α : Type} (w : Weave α)

/-- A new block, or the next `n` items of the block `k`. -/
inductive Act (α : Type)
  | start (block : List α)
  | write (k n : ℕ)

def empty : Weave α := ⟨[], []⟩

def block (k : ℕ) : List α := w.blocks[k]?.getD []

/-- How many items of the block are on the stream. -/
def written (k : ℕ) : ℕ := w.stream.countP fun e => e.1 == k

/-- The items that `write k n` writes. -/
def next (k n : ℕ) : List α := ((w.block k).drop (w.written k)).take n

def step (w : Weave α) : Act α → Weave α
  | .start block => { w with blocks := w.blocks ++ [block] }
  | .write k n => { w with stream := w.stream ++ (w.next k n).map (k, ·) }

/-- The block is begun and not done. -/
def Partly (k : ℕ) : Prop := 0 < w.written k ∧ w.written k < (w.block k).length

/-- Nothing is written while another block is begun and not done. -/
def Alone (w : Weave α) : Act α → Prop
  | .start _ => True
  | .write k n => w.next k n ≠ [] → ∀ j, j ≠ k → ¬ w.Partly j

/-- The items of a block under its number. -/
def tagged (k : ℕ) : List (ℕ × α) := (w.block k).map (k, ·)

/-- The stream is the front of the blocks in some order. -/
def Whole : Prop :=
  ∃ order : List ℕ, order.Perm (List.range w.blocks.length) ∧ w.stream <+: order.flatMap w.tagged

section Proofs

variable {w} {order : List ℕ} {j k n : ℕ}

theorem countP_tagged (j k : ℕ) :
    (w.tagged k).countP (fun e => e.1 == j) = if k = j then (w.block k).length else 0 := by
  unfold tagged
  rw [List.countP_map]
  split_ifs with h
  · refine (List.countP_eq_length.2 fun a _ => ?_).trans rfl
    simp [h]
  · refine List.countP_eq_zero.2 fun a _ => ?_
    simp [h]

theorem countP_flatMap_eq_zero (h : j ∉ order) :
    (order.flatMap w.tagged).countP (fun e => e.1 == j) = 0 := by
  refine List.countP_eq_zero.2 fun e he => ?_
  obtain ⟨k, hk, he⟩ := List.mem_flatMap.1 he
  obtain ⟨a, -, rfl⟩ := List.mem_map.1 he
  simp only [beq_iff_eq]
  rintro rfl
  exact h hk

/-! ## Mixed blocks -/

/-- A block that is begun and not done is followed by its next item. -/
theorem not_prefix_of_partly {stream rest : List (ℕ × α)} {e : ℕ × α}
    (hnodup : order.Nodup) (hpos : 0 < stream.countP fun e => e.1 == j)
    (hlt : (stream.countP fun e => e.1 == j) < (w.block j).length) (he : e.1 ≠ j) :
    ¬ stream ++ e :: rest <+: order.flatMap w.tagged := by
  rintro ⟨behind, hstream⟩
  have hmem : j ∈ order := by
    by_contra hnot
    have hzero := @countP_flatMap_eq_zero α w order j hnot
    rw [← hstream, List.append_assoc, List.countP_append] at hzero
    omega
  obtain ⟨before, after, rfl⟩ := List.append_of_mem hmem
  have hbefore : j ∉ before := fun h =>
    (List.nodup_append.1 hnodup).2.2 j h j List.mem_cons_self rfl
  have hzero := @countP_flatMap_eq_zero α w before j hbefore
  have hown : (w.tagged j).countP (fun e => e.1 == j) = (w.block j).length := by
    rw [countP_tagged, if_pos rfl]
  rw [List.flatMap_append, List.flatMap_cons, List.append_assoc] at hstream
  rcases List.append_eq_append_iff.1 hstream with ⟨a, e₁, -⟩ | ⟨c, e₁, e₂⟩
  · rw [e₁, List.countP_append] at hzero
    omega
  · rw [e₁, List.countP_append, hzero] at hpos hlt
    rcases List.append_eq_append_iff.1 e₂ with ⟨a, rfl, -⟩ | ⟨c', e₃, e₄⟩
    · rw [List.countP_append, hown] at hlt
      omega
    · rw [e₃, List.countP_append] at hown
      cases c' with
      | nil =>
        rw [List.countP_nil] at hown
        omega
      | cons e' c' =>
        obtain ⟨rfl, -⟩ := List.cons.inj e₄
        have hmem : e ∈ w.tagged j := e₃ ▸ List.mem_append_right c List.mem_cons_self
        obtain ⟨a, -, rfl⟩ := List.mem_map.1 hmem
        exact he rfl

/-- Writing beside a block that is begun and not done tears it apart. -/
theorem not_whole_of_not_alone {a : Act α} (h : ¬ w.Alone a) : ¬ (w.step a).Whole := by
  cases a with
  | start block => exact absurd trivial h
  | write k n =>
    unfold Alone at h
    push Not at h
    obtain ⟨hnext, j, hj, hpos, hlt⟩ := h
    rintro ⟨order, hperm, hstream⟩
    obtain ⟨a, rest, hcons⟩ := List.exists_cons_of_ne_nil hnext
    have hstream : w.stream ++ (w.next k n).map (k, ·) <+: order.flatMap w.tagged := hstream
    rw [hcons, List.map_cons] at hstream
    exact not_prefix_of_partly (hperm.nodup_iff.2 List.nodup_range) hpos hlt (Ne.symm hj) hstream

/-! ## One block after the other -/

/-- What is written of a block, under its number. -/
def taken (w : Weave α) (k : ℕ) : List (ℕ × α) := (w.tagged k).take (w.written k)

/-- The blocks that are begun, in order; all but the last are done. -/
structure Tidy (w : Weave α) (begun : List ℕ) : Prop where
  nodup : begun.Nodup
  lt : ∀ k ∈ begun, k < w.blocks.length
  pos : ∀ k, k ∈ begun ↔ 0 < w.written k
  stream : w.stream = begun.flatMap w.taken
  done : ∀ k ∈ begun.dropLast, (w.block k).length ≤ w.written k

variable {begun : List ℕ}

theorem tidy_empty : Tidy (empty : Weave α) [] where
  nodup := .nil
  lt _ hk := absurd hk List.not_mem_nil
  pos _ := iff_of_false List.not_mem_nil (Nat.lt_irrefl 0)
  stream := rfl
  done _ hk := absurd hk List.not_mem_nil

theorem length_tagged (w : Weave α) (k : ℕ) : (w.tagged k).length = (w.block k).length :=
  List.length_map _

theorem taken_of_done (h : (w.block k).length ≤ w.written k) : w.taken k = w.tagged k :=
  List.take_of_length_le ((length_tagged w k).trans_le h)

/-- The blocks that are begun come first, and then the others. -/
theorem Tidy.whole (h : Tidy w begun) : w.Whole := by
  have hfront : w.stream <+: begun.flatMap w.tagged := by
    rw [h.stream]
    rcases List.eq_nil_or_concat begun with rfl | ⟨before, k, rfl⟩
    · exact List.prefix_rfl
    · have hbefore : before.flatMap w.taken = before.flatMap w.tagged := by
        refine List.flatMap_congr fun j hj => taken_of_done (h.done j ?_)
        rwa [List.concat_eq_append, List.dropLast_concat]
      rw [List.concat_eq_append, List.flatMap_append, List.flatMap_append, hbefore,
        List.flatMap_singleton, List.flatMap_singleton]
      exact (List.prefix_append_right_inj _).2 (List.take_prefix _ _)
  refine ⟨begun ++ (List.range w.blocks.length).filter (· ∉ begun), ?_, ?_⟩
  · refine (List.perm_ext_iff_of_nodup ?_ List.nodup_range).2 fun k => ?_
    · refine List.nodup_append.2 ⟨h.nodup, List.nodup_range.filter _, fun j hj k hk => ?_⟩
      rintro rfl
      simp [hj] at hk
    · simp only [List.mem_append, List.mem_filter, List.mem_range, decide_eq_true_eq]
      exact ⟨fun hk => hk.elim (h.lt k) And.left, fun hk => (em (k ∈ begun)).imp_right fun hnot =>
        ⟨hk, hnot⟩⟩
  · rw [List.flatMap_append]
    exact hfront.trans (List.prefix_append _ _)

theorem Tidy.start (h : Tidy w begun) (block : List α) : Tidy (w.step (.start block)) begun := by
  have hblock : ∀ k ∈ begun, (w.step (.start block)).block k = w.block k := by
    intro k hk
    show ((w.blocks ++ [block])[k]?).getD [] = _
    rw [List.getElem?_append_left (h.lt k hk)]
    rfl
  have htaken : ∀ k ∈ begun, w.taken k = (w.step (.start block)).taken k := by
    intro k hk
    unfold taken tagged
    rw [hblock k hk]
    rfl
  exact
    { nodup := h.nodup
      lt := fun k hk => by
        show k < (w.blocks ++ [block]).length
        rw [List.length_append]
        exact Nat.lt_add_right _ (h.lt k hk)
      pos := h.pos
      stream := h.stream.trans (List.flatMap_congr htaken)
      done := fun k hk => (congrArg List.length (hblock k (List.dropLast_subset _ hk))).trans_le
        (h.done k hk) }

/-- A piece continues what is written of its block. -/
theorem take_tagged (w : Weave α) (k n : ℕ) :
    (w.tagged k).take (w.written k + (w.next k n).length) =
      w.taken k ++ (w.next k n).map (k, ·) := by
  have hpiece : ((w.block k).drop (w.written k)).take (w.next k n).length = w.next k n := by
    unfold next
    rw [List.length_take, ← List.take_eq_take_min]
  unfold taken tagged
  rw [List.take_add, ← List.map_drop, ← List.map_take, ← List.map_take, hpiece]

theorem written_write (j k n : ℕ) : (w.step (.write k n)).written j =
    w.written j + if k = j then (w.next k n).length else 0 := by
  show (w.stream ++ (w.next k n).map (k, ·)).countP _ = _
  rw [List.countP_append, List.countP_map]
  congr 1
  split_ifs with h
  · exact List.countP_eq_length.2 fun a _ => by simp [h]
  · exact List.countP_eq_zero.2 fun a _ => by simp [h]

theorem Tidy.write (h : Tidy w begun) (halone : w.Alone (.write k n)) :
    ∃ begun', Tidy (w.step (.write k n)) begun' := by
  by_cases hnext : w.next k n = []
  · refine ⟨begun, ?_⟩
    have hsame : w.step (.write k n) = w := by
      show { w with stream := w.stream ++ (w.next k n).map (k, ·) } = w
      rw [hnext, List.map_nil, List.append_nil]
    rwa [hsame]
  · have hblock (j : ℕ) : (w.step (.write k n)).block j = w.block j := rfl
    have htagged (j : ℕ) : (w.step (.write k n)).tagged j = w.tagged j := rfl
    have hother {j : ℕ} (hj : j ≠ k) : (w.step (.write k n)).written j = w.written j := by
      rw [written_write, if_neg (Ne.symm hj), Nat.add_zero]
    have hown : (w.step (.write k n)).written k = w.written k + (w.next k n).length := by
      rw [written_write, if_pos rfl]
    have htaken {j : ℕ} (hj : j ≠ k) : w.taken j = (w.step (.write k n)).taken j := by
      unfold taken
      rw [hother hj]
      rfl
    have htaken' : (w.step (.write k n)).taken k = w.taken k ++ (w.next k n).map (k, ·) := by
      unfold taken
      rw [hown]
      exact take_tagged w k n
    have hpos : 0 < (w.next k n).length := List.length_pos_iff.2 hnext
    have hopen : w.written k < (w.block k).length := by
      by_contra hdone
      refine hnext ?_
      unfold next
      rw [List.drop_eq_nil_of_le (Nat.le_of_not_lt hdone), List.take_nil]
    by_cases hk : k ∈ begun
    · obtain ⟨before, rfl⟩ : ∃ before, begun = before ++ [k] := by
        rcases List.eq_nil_or_concat begun with rfl | ⟨before, last, rfl⟩
        · exact absurd hk List.not_mem_nil
        · rw [List.concat_eq_append] at hk h ⊢
          rcases List.mem_append.1 hk with hk | hk
          · have hdone := h.done k (by rwa [List.dropLast_concat])
            exact absurd hopen (Nat.not_lt_of_le hdone)
          · exact ⟨before, by rw [List.mem_singleton.1 hk]⟩
      have hne {j : ℕ} (hj : j ∈ before) : j ≠ k := fun e =>
        (List.nodup_append.1 h.nodup).2.2 j hj k List.mem_cons_self e
      refine ⟨before ++ [k], h.nodup, h.lt, fun j => ?_, ?_, fun j hj => ?_⟩
      · by_cases hj : j = k
        · rw [hj, hown]
          exact iff_of_true hk (Nat.add_pos_right _ hpos)
        · rw [hother hj]
          exact h.pos j
      · show w.stream ++ (w.next k n).map (k, ·) = _
        rw [h.stream, List.flatMap_append, List.flatMap_append, List.flatMap_singleton,
          List.flatMap_singleton, htaken', List.append_assoc,
          List.flatMap_congr fun j hj => htaken (hne hj)]
      · rw [hother (hne (by rwa [List.dropLast_concat] at hj))]
        exact h.done j hj
    · have hzero : w.written k = 0 := by
        by_contra hne
        exact hk ((h.pos k).2 (Nat.pos_of_ne_zero hne))
      have hne {j : ℕ} (hj : j ∈ begun) : j ≠ k := fun e => hk (e ▸ hj)
      refine ⟨begun ++ [k], ?_, ?_, ?_, ?_, ?_⟩
      · exact List.nodup_append.2 ⟨h.nodup, List.nodup_singleton k, fun j hj i hi e =>
          hne hj (e.trans (List.mem_singleton.1 hi))⟩
      · intro j hj
        rcases List.mem_append.1 hj with hj | hj
        · exact h.lt j hj
        · rw [List.mem_singleton.1 hj]
          show k < w.blocks.length
          by_contra hk
          unfold block at hopen
          rw [List.getElem?_eq_none (Nat.le_of_not_lt hk)] at hopen
          exact Nat.not_lt_zero _ hopen
      · intro j
        rw [List.mem_append, List.mem_singleton]
        by_cases hj : j = k
        · rw [hj, hown]
          exact iff_of_true (Or.inr rfl) (Nat.add_pos_right _ hpos)
        · rw [hother hj, or_iff_left hj]
          exact h.pos j
      · show w.stream ++ (w.next k n).map (k, ·) = _
        have hnone : w.taken k = [] := by
          unfold taken
          rw [hzero, List.take_zero]
        rw [h.stream, List.flatMap_append, List.flatMap_singleton, htaken', hnone,
          List.nil_append, List.flatMap_congr fun j hj => htaken (hne hj)]
      · intro j hj
        rw [List.dropLast_concat] at hj
        rw [hother (hne hj)]
        exact Nat.le_of_not_lt fun hlt => halone hnext j (hne hj) ⟨(h.pos j).1 hj, hlt⟩

/-- Acts that write nothing beside an open block keep the blocks in order. -/
theorem Tidy.step {a : Act α} (h : Tidy w begun) (halone : w.Alone a) :
    ∃ begun', Tidy (w.step a) begun' := by
  cases a with
  | start block => exact ⟨begun, h.start block⟩
  | write k n => exact h.write halone

/-! ## The whole stream -/

/-- The items of the stream without their numbers. -/
def items (w : Weave α) : List α := w.stream.map (·.2)

/-- When all blocks are done, the stream is the blocks in some order. -/
theorem Whole.items_eq (h : w.Whole) (hdone : w.stream.length = (w.blocks.map List.length).sum) :
    ∃ order : List ℕ, order.Perm (List.range w.blocks.length) ∧
      w.items = order.flatMap w.block := by
  obtain ⟨order, hperm, hstream⟩ := h
  have hrange : (List.range w.blocks.length).map (fun k => (w.block k).length) =
      w.blocks.map List.length := by
    refine List.ext_getElem (by rw [List.length_map, List.length_map, List.length_range])
      fun k hk hk' => ?_
    rw [List.length_map] at hk'
    rw [List.getElem_map, List.getElem_map, List.getElem_range, block,
      List.getElem?_eq_getElem hk', Option.getD_some]
  have hlength : (order.flatMap w.tagged).length = w.stream.length := by
    rw [hdone, ← hrange, List.length_flatMap, ← (hperm.map _).sum_nat]
    simp only [length_tagged]
  have heq := hstream.eq_of_length hlength.symm
  refine ⟨order, hperm, ?_⟩
  unfold items
  rw [heq, List.map_flatMap]
  refine List.flatMap_congr fun k _ => ?_
  unfold tagged
  rw [List.map_map]
  exact List.map_id _

end Proofs

end Weave

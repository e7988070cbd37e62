import Mathlib.Data.List.Induction
import Mathlib.Data.List.Nodup
import Mathlib.Order.Basic

/-!
# Mailboxes with expiry

A store that accepts payloads for recipients and hands each recipient, when asked, everything that
waits for it.  What a fetch has to return is read off the history of the store (`due`): what was
accepted for the recipient since its last fetch, in order, unless it was evicted or has expired.  A
store whose fetches return that (`Faithful`) never returns an item twice, nor to anybody but its
recipient.
-/

namespace Mailbox

/-- An accepted payload, numbered in the order of acceptance. -/
structure Item (ρ π τ : Type) where
  id : ℕ
  recipient : ρ
  payload : π
  expires : τ
  deriving DecidableEq

inductive Event (ρ π τ : Type)
  | accepted (item : Item ρ π τ)
  /-- The item with this number had to make room. -/
  | evicted (id : ℕ)
  /-- A fetch, with what it returned. -/
  | fetched (recipient : ρ) (now : τ) (payloads : List π)

/-- What happened to a store, the latest event first. -/
abbrev History (ρ π τ : Type) := List (Event ρ π τ)

variable {ρ π τ : Type}

/-- Every accepted item. -/
def items : History ρ π τ → List (Item ρ π τ)
  | [] => []
  | .accepted item :: h => item :: items h
  | .evicted _ :: h | .fetched _ _ _ :: h => items h

/-- Later items have greater numbers. -/
def Numbered (h : History ρ π τ) : Prop := (items h).Pairwise fun i j => j.id < i.id

section Recipients

variable [DecidableEq ρ]

/-- What waits for the recipient, expired or not: accepted since its last fetch and not evicted, in
the order of acceptance. -/
def outstanding (r : ρ) : History ρ π τ → List (Item ρ π τ)
  | [] => []
  | .accepted item :: h =>
    if item.recipient = r then outstanding r h ++ [item] else outstanding r h
  | .evicted id :: h => (outstanding r h).filter fun item => item.id != id
  | .fetched r' _ _ :: h => if r' = r then [] else outstanding r h

variable [LT τ] [DecidableLT τ]

/-- What a fetch at `now` has to return. -/
def due (r : ρ) (now : τ) (h : History ρ π τ) : List (Item ρ π τ) :=
  (outstanding r h).filter fun item => now < item.expires

/-- Every fetch returned what was due. -/
def Faithful : History ρ π τ → Prop
  | [] => True
  | .fetched r now payloads :: h => payloads = (due r now h).map (·.payload) ∧ Faithful h
  | .accepted _ :: h | .evicted _ :: h => Faithful h

/-- The items that were due at the fetches so far, each with the recipient that fetched it. -/
def delivered : History ρ π τ → List (ρ × Item ρ π τ)
  | [] => []
  | .fetched r now _ :: h => (due r now h).map (fun item => (r, item)) ++ delivered h
  | .accepted _ :: h | .evicted _ :: h => delivered h

variable {h : History ρ π τ} {r r' : ρ} {now : τ} {item item' : Item ρ π τ}

omit [LT τ] [DecidableLT τ] in
theorem of_mem_outstanding (hitem : item ∈ outstanding r h) :
    item ∈ items h ∧ item.recipient = r := by
  induction h with
  | nil => exact absurd hitem List.not_mem_nil
  | cons event h ih =>
    cases event with
    | accepted new =>
      unfold outstanding at hitem
      split_ifs at hitem with hr
      · rcases List.mem_append.1 hitem with hitem | hitem
        · exact ⟨List.mem_cons_of_mem new (ih hitem).1, (ih hitem).2⟩
        · rw [List.mem_singleton.1 hitem]
          exact ⟨List.mem_cons_self, hr⟩
      · exact ⟨List.mem_cons_of_mem new (ih hitem).1, (ih hitem).2⟩
    | evicted id => exact ih (List.mem_filter.1 hitem).1
    | fetched fetcher now payloads =>
      unfold outstanding at hitem
      split_ifs at hitem
      · exact absurd hitem List.not_mem_nil
      · exact ih hitem

omit [DecidableEq ρ] [LT τ] [DecidableLT τ] in
/-- A number belongs to one item only. -/
theorem Numbered.eq_of_id_eq (hnumbered : Numbered h) (hitem : item ∈ items h)
    (hitem' : item' ∈ items h) (hid : item.id = item'.id) : item = item' := by
  have hnodup : ((items h).map Item.id).Nodup :=
    List.pairwise_map.2 (List.Pairwise.imp Nat.ne_of_gt hnumbered)
  exact List.inj_on_of_nodup_map hnodup hitem hitem' hid

omit [DecidableEq ρ] [LT τ] [DecidableLT τ] in
theorem Numbered.of_cons {event : Event ρ π τ} (hnumbered : Numbered (event :: h)) :
    Numbered h := by
  cases event with
  | accepted new => exact (List.pairwise_cons.1 hnumbered).2
  | evicted => exact hnumbered
  | fetched => exact hnumbered

omit [DecidableEq ρ] [LT τ] [DecidableLT τ] in
theorem Numbered.lt_accepted {new : Item ρ π τ} (hnumbered : Numbered (.accepted new :: h))
    (hitem : item ∈ items h) : item.id < new.id :=
  (List.pairwise_cons.1 hnumbered).1 item hitem

omit [LT τ] [DecidableLT τ] in
/-- What waits for a recipient is in the order of acceptance. -/
theorem Numbered.outstanding_sorted (hnumbered : Numbered h) (r : ρ) :
    (outstanding r h).Pairwise fun i j => i.id < j.id := by
  induction h with
  | nil => exact List.Pairwise.nil
  | cons event h ih =>
    have hsorted := ih hnumbered.of_cons
    cases event with
    | accepted new =>
      unfold outstanding
      split_ifs
      · refine List.pairwise_append.2 ⟨hsorted, List.pairwise_singleton _ _, ?_⟩
        intro i hi j hj
        rw [List.mem_singleton.1 hj]
        exact hnumbered.lt_accepted (of_mem_outstanding hi).1
      · exact hsorted
    | evicted id => exact hsorted.filter _
    | fetched fetcher now payloads =>
      unfold outstanding
      split_ifs
      · exact List.Pairwise.nil
      · exact hsorted

theorem mem_due (hitem : item ∈ due r now h) : item ∈ outstanding r h :=
  (List.mem_filter.1 hitem).1

theorem due_accepted :
    due r now (.accepted item :: h) =
      due r now h ++ if item.recipient = r ∧ now < item.expires then [item] else [] := by
  unfold due
  rw [outstanding]
  by_cases hr : item.recipient = r
  · rw [if_pos hr, List.filter_append]
    by_cases hnow : now < item.expires <;> simp [hr, hnow]
  · simp [hr]

theorem due_evicted (id : ℕ) :
    due r now (.evicted id :: h) = (due r now h).filter fun item => item.id != id := by
  unfold due
  rw [outstanding, List.filter_filter, List.filter_filter]
  exact List.filter_congr fun item _ => Bool.and_comm _ _

theorem due_fetched (payloads : List π) (now' : τ) :
    due r now (.fetched r' now' payloads :: h) = if r' = r then [] else due r now h := by
  unfold due
  rw [outstanding]
  split_ifs <;> rfl

/-- What was delivered was accepted, for the recipient that got it. -/
theorem of_mem_delivered (hmem : (r, item) ∈ delivered h) :
    item ∈ items h ∧ item.recipient = r := by
  induction h with
  | nil => exact absurd hmem List.not_mem_nil
  | cons event h ih =>
    cases event with
    | accepted new => exact ⟨List.mem_cons_of_mem new (ih hmem).1, (ih hmem).2⟩
    | evicted id => exact ih hmem
    | fetched fetcher now payloads =>
      rcases List.mem_append.1 hmem with hmem | hmem
      · obtain ⟨i, hi, e⟩ := List.mem_map.1 hmem
        cases e
        have hwaited := of_mem_outstanding (mem_due hi)
        exact hwaited
      · exact ih hmem

/-- What was delivered does not wait any more. -/
theorem Numbered.id_ne_of_delivered (hnumbered : Numbered h) (hmem : (r', item') ∈ delivered h)
    (hitem : item ∈ outstanding r h) : item'.id ≠ item.id := by
  induction h with
  | nil => exact absurd hmem List.not_mem_nil
  | cons event h ih =>
    have hn := hnumbered.of_cons
    cases event with
    | accepted new =>
      unfold outstanding at hitem
      split_ifs at hitem
      · rcases List.mem_append.1 hitem with hitem | hitem
        · exact ih hn hmem hitem
        · have hbefore : (r', item') ∈ delivered h := hmem
          rw [List.mem_singleton.1 hitem]
          exact Nat.ne_of_lt (hnumbered.lt_accepted (of_mem_delivered hbefore).1)
      · exact ih hn hmem hitem
    | evicted id => exact ih hn hmem (List.mem_filter.1 hitem).1
    | fetched fetcher now payloads =>
      unfold outstanding at hitem
      split_ifs at hitem with hfetcher
      · exact absurd hitem List.not_mem_nil
      · rcases List.mem_append.1 hmem with hmem | hmem
        · -- both wait, but for different recipients
          obtain ⟨i, hi, e⟩ := List.mem_map.1 hmem
          cases e
          intro hid
          have hmine := of_mem_outstanding (mem_due hi)
          have hother := of_mem_outstanding hitem
          have hsame := hn.eq_of_id_eq hmine.1 hother.1 hid
          exact hfetcher (hmine.2.symm.trans ((congrArg Item.recipient hsame).trans hother.2))
        · exact ih hn hmem hitem

/-- No item is delivered twice. -/
theorem Numbered.nodup_delivered (hnumbered : Numbered h) :
    ((delivered h).map fun e => e.2.id).Nodup := by
  induction h with
  | nil => exact List.nodup_nil
  | cons event h ih =>
    have hn := hnumbered.of_cons
    cases event with
    | accepted new => exact ih hn
    | evicted id => exact ih hn
    | fetched fetcher now payloads =>
      unfold delivered
      rw [List.map_append, List.map_map]
      refine List.Nodup.append ?_ (ih hn) ?_
      · have hsorted := (hn.outstanding_sorted fetcher).filter fun item => now < item.expires
        exact List.pairwise_map.2 (hsorted.imp Nat.ne_of_lt)
      · intro id hdue hbefore
        obtain ⟨item, hitem, rfl⟩ := List.mem_map.1 hdue
        obtain ⟨⟨r', item'⟩, hmem, hid⟩ := List.mem_map.1 hbefore
        exact hn.id_ne_of_delivered hmem (mem_due hitem) hid

/-! ## Stores that were filled before -/

/-- The history of a store that accepted the items and did nothing else. -/
def filled (is : List (Item ρ π τ)) : History ρ π τ := (is.map Event.accepted).reverse

omit [DecidableEq ρ] [LT τ] [DecidableLT τ] in
theorem filled_concat (is : List (Item ρ π τ)) :
    filled (is ++ [item]) = .accepted item :: filled is := by
  simp [filled]

omit [DecidableEq ρ] [LT τ] [DecidableLT τ] in
theorem items_filled (is : List (Item ρ π τ)) : items (filled is) = is.reverse := by
  induction is using List.reverseRecOn with
  | nil => rfl
  | append_singleton is i ih => simp [filled_concat, items, ih]

theorem due_filled (is : List (Item ρ π τ)) (r : ρ) (now : τ) :
    due r now (filled is) = is.filter fun i => i.recipient = r ∧ now < i.expires := by
  induction is using List.reverseRecOn with
  | nil => rfl
  | append_singleton is i ih =>
    rw [filled_concat, due_accepted, ih, List.filter_append]
    by_cases hdue : i.recipient = r ∧ now < i.expires <;> simp [hdue]

theorem faithful_filled (is : List (Item ρ π τ)) : Faithful (filled is) := by
  induction is using List.reverseRecOn with
  | nil => trivial
  | append_singleton is i ih =>
    rw [filled_concat]
    exact ih

end Recipients

end Mailbox

import Mathlib.Algebra.GroupWithZero.Nat
import Mathlib.Data.List.AList

/-!
# Unordered containers

Finite maps and finite sets whose elements can be visited one by one.  A map is Mathlib's `AList`
over a constant family; a set is a list without repetitions.  Both have a fixed but arbitrary
visiting order, so nothing here says which element is visited first.

The second half is about two maps that are inverse to each other (`MutuallyInverse`): what linking
and unlinking one pair does to such a couple.
-/

namespace Container

/-! ## Maps -/

/-- A finite map with distinct keys and an arbitrary visiting order. -/
abbrev UnorderedMap (κ ν : Type) := AList fun _ : κ => ν

namespace UnorderedMap

variable {κ ν : Type} [DecidableEq κ]

theorem lookup_insert_ite (m : UnorderedMap κ ν) (a b : κ) (v : ν) :
    (m.insert b v).lookup a = if a = b then some v else m.lookup a := by
  split_ifs with h
  · subst h
    exact AList.lookup_insert m
  · exact AList.lookup_insert_ne h

theorem lookup_erase_ite (m : UnorderedMap κ ν) (a b : κ) :
    (m.erase b).lookup a = if a = b then none else m.lookup a := by
  split_ifs with h
  · subst h
    exact AList.lookup_erase a m
  · exact AList.lookup_erase_ne h

@[simp] theorem lookup_empty (a : κ) : (∅ : UnorderedMap κ ν).lookup a = none := rfl

theorem mem_iff_lookup {m : UnorderedMap κ ν} {a : κ} : a ∈ m ↔ ∃ v, m.lookup a = some v := by
  rw [← AList.lookup_isSome, Option.isSome_iff_exists]

theorem lookup_eq_some_of_mem_entries {m : UnorderedMap κ ν} {e : Sigma fun _ : κ => ν}
    (h : e ∈ m.entries) : m.lookup e.1 = some e.2 :=
  AList.mem_lookup_iff.2 h

theorem mem_insert_iff {m : UnorderedMap κ ν} {a b : κ} {v : ν} :
    a ∈ m.insert b v ↔ a = b ∨ a ∈ m := by
  simp only [mem_iff_lookup, lookup_insert_ite]
  by_cases h : a = b <;> simp [h]

/-- The entries that satisfy `p`. -/
def filter (p : κ → ν → Bool) (m : UnorderedMap κ ν) : UnorderedMap κ ν :=
  ⟨m.entries.filter fun e => p e.1 e.2, m.nodupKeys.sublist List.filter_sublist⟩

theorem lookup_filter (p : κ → ν → Bool) (m : UnorderedMap κ ν) (a : κ) :
    (filter p m).lookup a = (m.lookup a).filter (p a) := by
  refine Option.ext fun v => ?_
  rw [← Option.mem_def, AList.mem_lookup_iff, Option.filter_eq_some_iff, ← Option.mem_def,
    AList.mem_lookup_iff]
  exact List.mem_filter

/-- The sum of `f` over the entries. -/
def total (f : κ → ν → ℕ) (m : UnorderedMap κ ν) : ℕ := (m.entries.map fun e => f e.1 e.2).sum

theorem total_insert (f : κ → ν → ℕ) (m : UnorderedMap κ ν) (a : κ) (v : ν) :
    total f (m.insert a v) = f a v + total f (m.erase a) := rfl

/-- Entries at which `f` is zero do not count. -/
theorem total_filter (f : κ → ν → ℕ) (p : κ → ν → Bool) (m : UnorderedMap κ ν)
    (h : ∀ k v, m.lookup k = some v → p k v = false → f k v = 0) :
    total f (filter p m) = total f m := by
  have hentries : ∀ e ∈ m.entries, p e.1 e.2 = false → f e.1 e.2 = 0 :=
    fun e he => h e.1 e.2 (lookup_eq_some_of_mem_entries he)
  unfold total filter
  dsimp only
  generalize m.entries = entries at hentries
  induction entries with
  | nil => rfl
  | cons e entries ih =>
    have hrest := ih fun e' he' => hentries e' (List.mem_cons_of_mem e he')
    rw [List.filter_cons, List.map_cons, List.sum_cons]
    split_ifs with hp
    · rw [List.map_cons, List.sum_cons, hrest]
    · rw [hrest, hentries e List.mem_cons_self (Bool.eq_false_iff.2 hp), Nat.zero_add]

theorem total_eq_zero (f : κ → ν → ℕ) (m : UnorderedMap κ ν)
    (h : ∀ k v, m.lookup k = some v → f k v = 0) : total f m = 0 := by
  have hnone : (filter (fun _ _ => false) m).entries = [] := List.filter_eq_nil_iff.2 (by simp)
  rw [← total_filter f (fun _ _ => false) m fun k v hv _ => h k v hv, total, hnone]
  rfl

/-- An entry at which `f` is zero can go. -/
theorem total_erase (f : κ → ν → ℕ) (m : UnorderedMap κ ν) {a : κ} (h : ∀ v, f a v = 0) :
    total f (m.erase a) = total f m := by
  unfold total
  rw [show (m.erase a).entries = m.entries.kerase a from rfl]
  by_cases ha : a ∈ m.entries.keys
  · obtain ⟨v, before, after, -, hentries, herased⟩ := List.exists_of_kerase ha
    rw [herased, hentries]
    simp [h]
  · rw [List.kerase_of_notMem_keys ha]

/-- What an entry adds, and what the others do. -/
theorem total_eq_add_erase (f : κ → ν → ℕ) (m : UnorderedMap κ ν) (a : κ) :
    total f m = ((m.lookup a).map (f a)).getD 0 + total f (m.erase a) := by
  unfold total
  rw [show (m.erase a).entries = m.entries.kerase a from rfl]
  by_cases ha : a ∈ m.entries.keys
  · obtain ⟨v, before, after, hbefore, hentries, herased⟩ := List.exists_of_kerase ha
    have hlookup : m.lookup a = some v := by
      apply AList.mem_lookup_iff.2
      rw [hentries]
      exact List.mem_append_right _ List.mem_cons_self
    rw [hlookup, herased, hentries]
    simp only [List.map_append, List.map_cons, List.sum_append, List.sum_cons, Option.map_some,
      Option.getD_some]
    omega
  · have hlookup : m.lookup a = none := AList.lookup_eq_none.2 ha
    rw [hlookup, List.kerase_of_notMem_keys ha, Option.map_none, Option.getD_none, Nat.zero_add]

end UnorderedMap

/-! ## Sets -/

/-- A finite set with an arbitrary visiting order. -/
structure UnorderedSet (α : Type) where
  elems : List α
  nodup : elems.Nodup
  deriving DecidableEq

namespace UnorderedSet

variable {α : Type}

instance : EmptyCollection (UnorderedSet α) := ⟨⟨[], List.nodup_nil⟩⟩

instance : Membership α (UnorderedSet α) := ⟨fun s a => a ∈ s.elems⟩

instance : HasSubset (UnorderedSet α) := ⟨fun s t => ∀ ⦃a⦄, a ∈ s → a ∈ t⟩

instance [DecidableEq α] (s : UnorderedSet α) (a : α) : Decidable (a ∈ s) :=
  inferInstanceAs (Decidable (a ∈ s.elems))

instance [DecidableEq α] (s t : UnorderedSet α) : Decidable (s ⊆ t) :=
  inferInstanceAs (Decidable (∀ a ∈ s.elems, a ∈ t.elems))

/-- The number of elements. -/
def size (s : UnorderedSet α) : ℕ := s.elems.length

@[simp] theorem not_mem_empty (a : α) : a ∉ (∅ : UnorderedSet α) := List.not_mem_nil

theorem empty_subset (s : UnorderedSet α) : ∅ ⊆ s := fun a ha => absurd ha (not_mem_empty a)

@[simp] theorem size_empty : (∅ : UnorderedSet α).size = 0 := rfl

theorem size_eq_zero_iff {s : UnorderedSet α} : s.size = 0 ↔ ∀ a, a ∉ s := by
  unfold size
  rw [List.length_eq_zero_iff, List.eq_nil_iff_forall_not_mem]
  rfl

theorem size_eq_one_iff_of_mem {s : UnorderedSet α} {a : α} (ha : a ∈ s) :
    s.size = 1 ↔ ∀ b ∈ s, b = a := by
  constructor
  · intro h b hb
    obtain ⟨x, hx⟩ := List.length_eq_one_iff.1 h
    have ha' : a ∈ s.elems := ha
    have hb' : b ∈ s.elems := hb
    rw [hx, List.mem_singleton] at ha' hb'
    rw [ha', hb']
  · intro h
    have hrep : s.elems = List.replicate s.elems.length a :=
      List.eq_replicate_iff.2 ⟨rfl, h⟩
    have hle : s.elems.length ≤ 1 := List.nodup_replicate.1 (hrep ▸ s.nodup)
    have hpos : 0 < s.elems.length := List.length_pos_of_mem ha
    exact le_antisymm hle hpos

variable [DecidableEq α]

/-- Put one element in. -/
def insert (a : α) (s : UnorderedSet α) : UnorderedSet α := ⟨s.elems.insert a, s.nodup.insert⟩

/-- Take one element out. -/
def erase (s : UnorderedSet α) (a : α) : UnorderedSet α := ⟨s.elems.erase a, s.nodup.erase a⟩

@[simp] theorem mem_insert {a b : α} {s : UnorderedSet α} : a ∈ s.insert b ↔ a = b ∨ a ∈ s :=
  List.mem_insert_iff

@[simp] theorem mem_erase {a b : α} {s : UnorderedSet α} : a ∈ s.erase b ↔ a ≠ b ∧ a ∈ s :=
  s.nodup.mem_erase_iff

theorem erase_of_notMem {a : α} {s : UnorderedSet α} (h : a ∉ s) : s.erase a = s := by
  obtain ⟨l, hl⟩ := s
  have hl' : l.erase a = l := List.erase_of_not_mem h
  simp only [erase, hl']

theorem elems_insert (a : α) (s : UnorderedSet α) :
    (s.insert a).elems = if a ∈ s then s.elems else a :: s.elems := by
  split_ifs with h
  · exact List.insert_of_mem h
  · exact List.insert_of_not_mem h

theorem elems_erase_sublist (s : UnorderedSet α) (a : α) : (s.erase a).elems.Sublist s.elems :=
  List.erase_sublist

theorem size_erase_le (s : UnorderedSet α) (a : α) : (s.erase a).size ≤ s.size :=
  List.length_erase_le

theorem size_insert_of_notMem {a : α} {s : UnorderedSet α} (h : a ∉ s) :
    (s.insert a).size = s.size + 1 :=
  List.length_insert_of_not_mem h

theorem insert_subset {a : α} {s t : UnorderedSet α} (ha : a ∈ t) (h : s ⊆ t) :
    s.insert a ⊆ t := by
  intro b hb
  rcases mem_insert.1 hb with rfl | hb
  · exact ha
  · exact h hb

theorem subset_insert_of_subset {a : α} {s t : UnorderedSet α} (h : s ⊆ t) : s ⊆ t.insert a :=
  fun _ hb => mem_insert.2 (Or.inr (h hb))

theorem insert_subset_insert {a : α} {s t : UnorderedSet α} (h : s ⊆ t) :
    s.insert a ⊆ t.insert a :=
  insert_subset (mem_insert.2 (Or.inl rfl)) (subset_insert_of_subset h)

theorem erase_subset_of_subset {a : α} {s t : UnorderedSet α} (h : s ⊆ t) : s.erase a ⊆ t :=
  fun _ hb => h (mem_erase.1 hb).2

theorem erase_subset_erase {a : α} {s t : UnorderedSet α} (h : s ⊆ t) : s.erase a ⊆ t.erase a :=
  fun _ hb => mem_erase.2 ⟨(mem_erase.1 hb).1, h (mem_erase.1 hb).2⟩

theorem subset_erase_iff {a : α} {s t : UnorderedSet α} (h : s ⊆ t) :
    s ⊆ t.erase a ↔ a ∉ s := by
  constructor
  · intro hs ha
    exact (mem_erase.1 (hs ha)).1 rfl
  · intro ha b hb
    refine mem_erase.2 ⟨?_, h hb⟩
    rintro rfl
    exact ha hb

end UnorderedSet

/-! ## Mutually inverse maps -/

section Inverse

variable {α β : Type} [DecidableEq α] [DecidableEq β]

/-- `m` sends `a` to `b` exactly when `n` sends `b` to `a`. -/
def MutuallyInverse (m : UnorderedMap α β) (n : UnorderedMap β α) : Prop :=
  ∀ a b, m.lookup a = some b ↔ n.lookup b = some a

variable {m : UnorderedMap α β} {n : UnorderedMap β α}

theorem mutuallyInverse_empty : MutuallyInverse (∅ : UnorderedMap α β) (∅ : UnorderedMap β α) :=
  fun a b => by simp

theorem MutuallyInverse.injective (h : MutuallyInverse m n) {a : α} {b b' : β}
    (hb : n.lookup b = some a) (hb' : n.lookup b' = some a) : b = b' :=
  Option.some.inj (((h a b).2 hb).symm.trans ((h a b').2 hb'))

/-- Linking two that have no partner. -/
theorem MutuallyInverse.insert (h : MutuallyInverse m n) {a : α} {b : β} (ha : m.lookup a = none)
    (hb : n.lookup b = none) : MutuallyInverse (m.insert a b) (n.insert b a) := by
  intro x y
  simp only [UnorderedMap.lookup_insert_ite]
  split_ifs with hx hy hy
  · simp [hx, hy]
  · refine iff_of_false (fun e => hy (Option.some.inj e).symm) fun e => ?_
    rw [← h, hx, ha] at e
    cases e
  · refine iff_of_false (fun e => ?_) fun e => hx (Option.some.inj e).symm
    rw [h, hy, hb] at e
    cases e
  · exact h x y

/-- Unlinking two partners. -/
theorem MutuallyInverse.erase (h : MutuallyInverse m n) {a : α} {b : β}
    (hab : n.lookup b = some a) : MutuallyInverse (m.erase a) (n.erase b) := by
  intro x y
  simp only [UnorderedMap.lookup_erase_ite]
  split_ifs with hx hy hy
  · simp
  · refine iff_of_false (by simp) fun e => hy ?_
    exact h.injective (hx ▸ e) hab
  · refine iff_of_false (fun e => hx ?_) (by simp)
    rw [h, hy, hab] at e
    exact (Option.some.inj e).symm
  · exact h x y

/-- Giving `b` the new partner `a`, where `m` forgets the old partner of `b`, or the default `d`
when `b` has none.  The couple stays inverse exactly when the default is not in use. -/
theorem MutuallyInverse.relink_iff (h : MutuallyInverse m n) {a d : α} {b : β}
    (free : ∀ b', m.lookup a = some b' → b' = b) :
    MutuallyInverse ((m.erase ((n.lookup b).getD d)).insert a b) (n.insert b a) ↔
      (n.lookup b = none → m.lookup d = none) := by
  constructor
  · intro h' hb
    by_contra hd
    obtain ⟨c, hc⟩ := Option.ne_none_iff_exists'.1 hd
    have hcd : n.lookup c = some d := (h d c).1 hc
    have hcb : c ≠ b := by
      rintro rfl
      rw [hb] at hcd
      cases hcd
    have hback := (h' d c).2 (by rw [UnorderedMap.lookup_insert_ite, if_neg hcb, hcd])
    rw [hb, Option.getD_none, UnorderedMap.lookup_insert_ite] at hback
    split_ifs at hback with hda
    · exact hcb (Option.some.inj hback).symm
    · rw [AList.lookup_erase] at hback
      cases hback
  · intro hd x y
    simp only [UnorderedMap.lookup_insert_ite, UnorderedMap.lookup_erase_ite]
    by_cases hxa : x = a
    · subst hxa
      rw [if_pos rfl]
      by_cases hyb : y = b
      · simp [hyb]
      · have : n.lookup y ≠ some x := fun e => hyb (free y ((h x y).2 e))
        simp [hyb, this, Ne.symm hyb]
    · rw [if_neg hxa]
      by_cases hyb : y = b
      · -- the old partner of `b` is the one erased
        subst hyb
        have hx : m.lookup x = some y → x = (n.lookup y).getD d := fun e => by
          rw [(h x y).1 e, Option.getD_some]
        by_cases hxo : x = (n.lookup y).getD d
        · simp [← hxo, Ne.symm hxa]
        · have : m.lookup x ≠ some y := fun e => hxo (hx e)
          simp [hxo, this, Ne.symm hxa]
      · rw [if_neg hyb, ← h x y]
        by_cases hxo : x = (n.lookup b).getD d
        · rw [if_pos hxo]
          refine iff_of_false (by simp) fun e => ?_
          rcases hb : n.lookup b with _ | o
          · rw [hb, Option.getD_none] at hxo
            rw [hxo, hd hb] at e
            cases e
          · rw [hb, Option.getD_some] at hxo
            exact hyb (h.injective ((h x y).1 e) (hxo ▸ hb))
        · rw [if_neg hxo]

end Inverse

end Container

import IrcordServer.Container

/-!
# Rosters

Groups with their members, and beside them the group of every member.  An element is in at most one
group, a group has at most `n` members, and one without members is dropped.
-/

namespace Container

variable {κ α : Type} [DecidableEq κ]

/-- The members of a group; one that is not there has none. -/
def members (groups : UnorderedMap κ (UnorderedSet α)) (c : κ) : UnorderedSet α :=
  (groups.lookup c).getD ∅

variable {groups groups' : UnorderedMap κ (UnorderedSet α)} {a : α} {c : κ}

theorem members_of_lookup {group : UnorderedSet α} (h : groups.lookup c = some group) :
    members groups c = group := by
  rw [members, h]
  rfl

/-- A group that has members is there. -/
theorem lookup_of_mem (h : a ∈ members groups c) : groups.lookup c = some (members groups c) := by
  cases hgroup : groups.lookup c with
  | none =>
    rw [members, hgroup] at h
    exact absurd h (UnorderedSet.not_mem_empty a)
  | some group => rw [members_of_lookup hgroup]

/-- The groups with one of them replaced, or dropped. -/
def putGroup (groups : UnorderedMap κ (UnorderedSet α)) (c : κ) (group : UnorderedSet α) :
    UnorderedMap κ (UnorderedSet α) :=
  if group.size = 0 then groups.erase c else groups.insert c group

theorem members_putGroup (group : UnorderedSet α) (c' : κ) :
    members (putGroup groups c group) c' = if c' = c then group else members groups c' := by
  unfold putGroup members
  split_ifs with hsize hc hc
  · rw [UnorderedMap.lookup_erase_ite, if_pos hc]
    have hnil : group.elems = [] := List.length_eq_zero_iff.1 hsize
    obtain ⟨elems, nodup⟩ := group
    subst hnil
    rfl
  · rw [UnorderedMap.lookup_erase_ite, if_neg hc]
  · rw [UnorderedMap.lookup_insert_ite, if_pos hc]
    rfl
  · rw [UnorderedMap.lookup_insert_ite, if_neg hc]

theorem lookup_putGroup_ne_empty (h : ∀ c group, groups.lookup c = some group → group.size ≠ 0)
    {group group' : UnorderedSet α} {c' : κ}
    (hgroup : (putGroup groups c group).lookup c' = some group') : group'.size ≠ 0 := by
  unfold putGroup at hgroup
  split_ifs at hgroup with hsize
  · rw [UnorderedMap.lookup_erase_ite] at hgroup
    split_ifs at hgroup
    exact h c' group' hgroup
  · rw [UnorderedMap.lookup_insert_ite] at hgroup
    split_ifs at hgroup
    · cases hgroup
      exact hsize
    · exact h c' group' hgroup

theorem members_insert (group : UnorderedSet α) (c' : κ) :
    members (groups.insert c group) c' = if c' = c then group else members groups c' := by
  unfold members
  rw [UnorderedMap.lookup_insert_ite]
  split_ifs
  · rfl
  · rfl

/-! ## Operations -/

variable [DecidableEq α] {n : ℕ} {place : UnorderedMap α κ}

structure Roster (n : ℕ) (groups : UnorderedMap κ (UnorderedSet α)) (place : UnorderedMap α κ) :
    Prop where
  mem_iff : ∀ a c, a ∈ members groups c ↔ place.lookup a = some c
  nonempty : ∀ c group, groups.lookup c = some group → group.size ≠ 0
  size_le : ∀ c, (members groups c).size ≤ n

theorem roster_empty (n : ℕ) :
    Roster n (∅ : UnorderedMap κ (UnorderedSet α)) (∅ : UnorderedMap α κ) where
  mem_iff a c := iff_of_false (UnorderedSet.not_mem_empty a) (Option.some_ne_none c).symm
  nonempty _ _ h := by cases h
  size_le _ := Nat.zero_le n

theorem Roster.congr (h : Roster n groups place) (e : ∀ c, groups'.lookup c = groups.lookup c) :
    Roster n groups' place := by
  have hmembers (c : κ) : members groups' c = members groups c := by rw [members, e]; rfl
  exact ⟨fun a c => by rw [hmembers]; exact h.mem_iff a c,
    fun c group hgroup => h.nonempty c group (e c ▸ hgroup),
    fun c => by rw [hmembers]; exact h.size_le c⟩

/-- Taking an element out of its group. -/
theorem Roster.erase (h : Roster n groups place) (ha : place.lookup a = some c) :
    Roster n (putGroup groups c ((members groups c).erase a)) (place.erase a) where
  mem_iff b c' := by
    rw [members_putGroup, UnorderedMap.lookup_erase_ite]
    by_cases hc : c' = c
    · subst hc
      rw [if_pos rfl, UnorderedSet.mem_erase]
      by_cases hb : b = a
      · rw [if_pos hb]
        exact iff_of_false (fun h => h.1 hb) (Option.some_ne_none _).symm
      · rw [if_neg hb, h.mem_iff]
        exact and_iff_right hb
    · rw [if_neg hc]
      by_cases hb : b = a
      · subst hb
        rw [if_pos rfl, h.mem_iff, ha]
        exact iff_of_false (fun e => hc (Option.some.inj e).symm) (Option.some_ne_none _).symm
      · rw [if_neg hb, h.mem_iff]
  nonempty _ _ hgroup := lookup_putGroup_ne_empty h.nonempty hgroup
  size_le c' := by
    rw [members_putGroup]
    split_ifs with hc
    · exact Nat.le_trans (UnorderedSet.size_erase_le _ a) (h.size_le c)
    · exact h.size_le c'

/-- Putting an element that is in no group into one that is not full. -/
theorem Roster.insert (h : Roster n groups place) (ha : place.lookup a = none)
    (hroom : (members groups c).size < n) :
    Roster n (groups.insert c ((members groups c).insert a)) (place.insert a c) where
  mem_iff b c' := by
    rw [members_insert, UnorderedMap.lookup_insert_ite]
    by_cases hb : b = a
    · subst hb
      rw [if_pos rfl]
      by_cases hc : c' = c
      · rw [if_pos hc, hc]
        exact iff_of_true (UnorderedSet.mem_insert.2 (Or.inl rfl)) rfl
      · rw [if_neg hc, h.mem_iff, ha]
        exact iff_of_false (Option.some_ne_none _).symm fun e => hc (Option.some.inj e).symm
    · rw [if_neg hb]
      by_cases hc : c' = c
      · subst hc
        rw [if_pos rfl, UnorderedSet.mem_insert, h.mem_iff]
        exact or_iff_right hb
      · rw [if_neg hc, h.mem_iff]
  nonempty c' group hgroup := by
    rw [UnorderedMap.lookup_insert_ite] at hgroup
    split_ifs at hgroup
    · cases hgroup
      intro hsize
      exact UnorderedSet.size_eq_zero_iff.1 hsize a (UnorderedSet.mem_insert.2 (Or.inl rfl))
    · exact h.nonempty c' group hgroup
  size_le c' := by
    rw [members_insert]
    split_ifs with hc
    · rw [UnorderedSet.size_insert_of_notMem]
      · exact hroom
      · rw [h.mem_iff, ha]
        exact (Option.some_ne_none c).symm
    · exact h.size_le c'

end Container

import IrcordServer.Db.OfflineQueue

/-!
# What counts as pending

`save` counts every row of the recipient against its limit, `get_pending_count` only those that a
fetch would still deliver.  A message that has expired and was not cleaned up is in one count and
not in the other.
-/

open Run

namespace Ircord

namespace OfflineStore

variable (db : Database)

/-- `get_pending_count`. -/
def getPendingCount (recipientId : Str) (nowUnix : ℤ) : ℕ :=
  db.offlineMessages.rows.countP fun r =>
    r.2.recipientId == recipientId && decide (r.2.expiresAt > nowUnix)

theorem getPendingCount_le (recipientId : Str) (nowUnix : ℤ) :
    getPendingCount db recipientId nowUnix ≤ pendingCount db recipientId := by
  apply List.countP_mono_left
  intro r _ h
  exact (Bool.and_eq_true_iff.1 h).1

/-- No message of the recipient has expired. -/
def NoneExpired (recipientId : Str) (nowUnix : ℤ) : Prop :=
  ∀ r ∈ db.offlineMessages.rows, r.2.recipientId = recipientId → nowUnix < r.2.expiresAt

/-- The counts differ by the expired messages. -/
theorem getPendingCount_eq_iff (recipientId : Str) (nowUnix : ℤ) :
    getPendingCount db recipientId nowUnix = pendingCount db recipientId ↔
      NoneExpired db recipientId nowUnix := by
  have hsplit : getPendingCount db recipientId nowUnix =
      (db.offlineMessages.rows.filter fun r => r.2.recipientId == recipientId).countP
        fun r => decide (r.2.expiresAt > nowUnix) := by
    rw [List.countP_filter, getPendingCount]
    simp only [Bool.and_comm]
  have hall : pendingCount db recipientId =
      (db.offlineMessages.rows.filter fun r => r.2.recipientId == recipientId).length :=
    List.countP_eq_length_filter
  rw [hsplit, hall, List.countP_eq_length]
  simp [NoneExpired]

variable {db}

/-- A payload that can be stored is refused for the limit only. -/
theorem save_refused_iff {recipientId : Str} {payload : Bytes} {nowUnix : ℤ} (hp : payload ≠ []) :
    (save db recipientId payload nowUnix).1 = false ↔
      maxMessagesPerUser ≤ pendingCount db recipientId := by
  by_cases hfull : maxMessagesPerUser ≤ pendingCount db recipientId
  · rw [save_of_full db payload nowUnix hfull]
    exact iff_of_true rfl hfull
  · rw [save_of_room db payload nowUnix (not_le.1 hfull), bindBlob_of_ne_nil hp]
    exact iff_of_false (by simp) hfull

/-- `save` refuses a payload that can be stored only if as many messages as the limit allows are
pending. -/
def LimitAgrees (db : Database) (recipientId : Str) (nowUnix : ℤ) : Prop :=
  ∀ payload, payload ≠ [] → (save db recipientId payload nowUnix).1 = false →
    maxMessagesPerUser ≤ getPendingCount db recipientId nowUnix

/-- Below the cap the two counts agree on what is full exactly when the recipient has room or
nothing of it has expired. -/
theorem limitAgrees_iff_of_caps (hcaps : LoggedStore.WithinCaps db) (recipientId : Str)
    (nowUnix : ℤ) :
    LimitAgrees db recipientId nowUnix ↔
      pendingCount db recipientId < maxMessagesPerUser ∨ NoneExpired db recipientId nowUnix := by
  have hcap := hcaps.recipient recipientId
  have hle := getPendingCount_le db recipientId nowUnix
  rw [← getPendingCount_eq_iff]
  constructor
  · intro hagrees
    by_cases hfull : maxMessagesPerUser ≤ pendingCount db recipientId
    · have := hagrees [0] (by simp) ((save_refused_iff (by simp)).2 hfull)
      omega
    · exact Or.inl (not_le.1 hfull)
  · intro hcond payload hp hrefused
    have hfull := (save_refused_iff hp).1 hrefused
    omega

end OfflineStore

namespace LoggedStore

open OfflineStore

/-- What a call does to the tables does not depend on the history. -/
theorem db_step (st : LoggedStore) (c : TimedCall) :
    (st.step c).db = ((start st.db c.nowUnix).step c).db := by
  obtain ⟨call, nowUnix⟩ := c
  cases call <;> rfl

theorem WithinCaps.step {st : LoggedStore} (h : WithinCaps st.db) (c : TimedCall) :
    WithinCaps (st.step c).db := by
  rw [db_step]
  exact ((tracks_start c.nowUnix h).step (Int.le_refl _)).caps

theorem withinCaps_final (calls : List TimedCall) :
    WithinCaps (final step (start .empty 0) calls).db := by
  have hall := AllStates.of_invariant (P := fun st : LoggedStore => WithinCaps st.db)
    (s := start .empty 0) withinCaps_empty (fun st c h => WithinCaps.step h c) calls
  exact hall.final

/-- In every table that calls reach, at any times of the clock. -/
theorem limitAgrees_iff (calls : List TimedCall) (recipientId : Str) (nowUnix : ℤ) :
    LimitAgrees (final step (start .empty 0) calls).db recipientId nowUnix ↔
      pendingCount (final step (start .empty 0) calls).db recipientId < maxMessagesPerUser ∨
        NoneExpired (final step (start .empty 0) calls).db recipientId nowUnix :=
  limitAgrees_iff_of_caps (withinCaps_final calls) recipientId nowUnix

/-- A hundred messages that have expired keep the next one out. -/
theorem not_limitAgrees_expired :
    ¬ ∀ (calls : List TimedCall) (recipientId : Str) (nowUnix : ℤ),
      LimitAgrees (final step (start .empty 0) calls).db recipientId nowUnix := by
  intro hall
  have h := hall (List.replicate 100 ⟨.save (str "bob") [1], 0⟩) (str "bob") ttlSeconds [1]
    (by simp) (by decide +kernel)
  revert h
  decide +kernel

end LoggedStore

end Ircord

import IrcordServer.Db.OfflineStore
import IrcordServer.Mailbox
import IrcordServer.Run

/-!
# The offline store as a set of mailboxes

Calls of the offline store, with the history they leave: `save` accepts a payload and may evict an
older one, `fetch_and_delete` fetches.  The rows that are not expired are what the history says is
waiting (`Tracks`), so that every fetch returns what is due.
-/

open Mailbox Run Sql

namespace Ircord

namespace OfflineStore

variable (db : Database)

/-! ## What the operations do to the rows -/

/-- The rows that `fetch_and_delete` reads. -/
def fetchedRows (recipientId : Str) (nowUnix : ℤ) : List (ℕ × OfflineMessageRow) :=
  db.offlineMessages.rows.filter fun r =>
    r.2.recipientId == recipientId && decide (r.2.expiresAt > nowUnix)

theorem fetchAndDelete_fst (recipientId : Str) (nowUnix : ℤ) :
    (fetchAndDelete db recipientId nowUnix).1 =
      (fetchedRows db recipientId nowUnix).map (·.2.payload) := rfl

/-- How many messages are there for the recipient. -/
def pendingCount (recipientId : Str) : ℕ :=
  db.offlineMessages.rows.countP fun r => r.2.recipientId == recipientId

/-- The tables with room for one more message. -/
def makeRoom : Database :=
  if maxTotalMessages ≤ db.offlineMessages.rows.length then deleteOldest db else db

theorem save_of_full {recipientId : Str} (payload : Bytes) (nowUnix : ℤ)
    (h : maxMessagesPerUser ≤ pendingCount db recipientId) :
    save db recipientId payload nowUnix = (false, db) :=
  if_pos h

/-- Room is made before it is known whether the payload can be stored. -/
theorem save_of_room {recipientId : Str} (payload : Bytes) (nowUnix : ℤ)
    (h : pendingCount db recipientId < maxMessagesPerUser) :
    save db recipientId payload nowUnix =
      match bindBlob payload with
      | none => (false, makeRoom db)
      | some blob =>
        (true, { makeRoom db with
          offlineMessages :=
            (makeRoom db).offlineMessages.insert
              ⟨recipientId, blob, nowUnix, nowUnix + ttlSeconds⟩ }) :=
  if_neg (not_le.2 h)

theorem seq_deleteOldest : (deleteOldest db).offlineMessages.seq = db.offlineMessages.seq := by
  unfold deleteOldest
  split <;> rfl

theorem seq_makeRoom : (makeRoom db).offlineMessages.seq = db.offlineMessages.seq := by
  unfold makeRoom
  split_ifs
  · exact seq_deleteOldest db
  · rfl

/-- The row with the smallest number goes. -/
theorem rows_deleteOldest :
    (deleteOldest db).offlineMessages.rows = db.offlineMessages.rows.tail := by
  have hsorted := db.offlineMessages.sorted
  unfold deleteOldest
  split
  · rename_i hrows
    rw [hrows]
    rfl
  · rename_i oldest rows hrows
    rw [hrows] at hsorted
    show List.filter _ db.offlineMessages.rows = _
    rw [hrows, List.tail_cons, List.filter_cons_of_neg (by simp), List.filter_eq_self]
    intro r hr
    have hlt := (List.pairwise_cons.1 hsorted).1 r hr
    simp only [Bool.not_eq_true', beq_eq_false_iff_ne]
    omega

theorem rows_makeRoom :
    (makeRoom db).offlineMessages.rows =
      if maxTotalMessages ≤ db.offlineMessages.rows.length then db.offlineMessages.rows.tail
      else db.offlineMessages.rows := by
  unfold makeRoom
  split_ifs
  · exact rows_deleteOldest db
  · rfl

/-- Making room removes nothing, or the row with the smallest number. -/
theorem makeRoom_cases :
    db.offlineMessages.rows.length < maxTotalMessages ∧
        (makeRoom db).offlineMessages.rows = db.offlineMessages.rows ∨
      maxTotalMessages ≤ db.offlineMessages.rows.length ∧
        ∃ oldest, db.offlineMessages.rows = oldest :: (makeRoom db).offlineMessages.rows := by
  rw [rows_makeRoom]
  split_ifs with hfull
  · refine Or.inr ⟨hfull, ?_⟩
    cases hrows : db.offlineMessages.rows with
    | nil =>
      rw [hrows] at hfull
      exact absurd hfull (by decide)
    | cons oldest rows => exact ⟨oldest, rfl⟩
  · exact Or.inl ⟨not_le.1 hfull, rfl⟩

theorem pendingCount_makeRoom_le (recipientId : Str) :
    pendingCount (makeRoom db) recipientId ≤ pendingCount db recipientId := by
  unfold pendingCount
  rcases makeRoom_cases db with ⟨-, hrows⟩ | ⟨-, oldest, hrows⟩
  · rw [hrows]
  · rw [hrows]
    exact (List.sublist_cons_self oldest _).countP_le

end OfflineStore

/-! ## Calls and their history -/

inductive OfflineCall
  | save (recipientId : Str) (payload : Bytes)
  | fetchAndDelete (recipientId : Str)
  | cleanupExpired

/-- A call, and what the clock reads in it. -/
structure TimedCall where
  call : OfflineCall
  nowUnix : ℤ

/-- The tables with what the calls so far returned. -/
structure LoggedStore where
  db : Database
  clock : ℤ
  history : History Str Bytes ℤ

namespace LoggedStore

open OfflineStore

/-- A row as an item of its mailbox. -/
def item (r : ℕ × OfflineMessageRow) : Item Str Bytes ℤ :=
  ⟨r.1, r.2.recipientId, r.2.payload, r.2.expiresAt⟩

/-- A store whose rows were accepted earlier. -/
def start (db : Database) (clock : ℤ) : LoggedStore where
  db := db
  clock := clock
  history := filled (db.offlineMessages.rows.map item)

/-- The rows that the call removed, as evictions. -/
def evictions (db db' : Database) : History Str Bytes ℤ :=
  (db.offlineMessages.rows.filter fun r => decide (r ∉ db'.offlineMessages.rows)).map fun r =>
    Event.evicted r.1

def step (st : LoggedStore) (c : TimedCall) : LoggedStore :=
  match c.call with
  | .save recipientId payload =>
    let (saved, db) := OfflineStore.save st.db recipientId payload c.nowUnix
    let accepted : History Str Bytes ℤ :=
      if saved then
        [.accepted ⟨db.offlineMessages.seq, recipientId, payload, c.nowUnix + ttlSeconds⟩]
      else []
    ⟨db, c.nowUnix, accepted ++ evictions st.db db ++ st.history⟩
  | .fetchAndDelete recipientId =>
    let (payloads, db) := OfflineStore.fetchAndDelete st.db recipientId c.nowUnix
    ⟨db, c.nowUnix, .fetched recipientId c.nowUnix payloads :: st.history⟩
  | .cleanupExpired =>
    ⟨OfflineStore.cleanupExpired st.db c.nowUnix, c.nowUnix, st.history⟩

/-- The limits of the store. -/
structure WithinCaps (db : Database) : Prop where
  recipient : ∀ recipientId, pendingCount db recipientId ≤ maxMessagesPerUser
  total : db.offlineMessages.rows.length ≤ maxTotalMessages

/-- The history numbers the items as the table does, and tells which rows are there that have not
expired. -/
structure Tracks (st : LoggedStore) : Prop where
  caps : WithinCaps st.db
  numbered : Numbered st.history
  le_seq : ∀ i ∈ items st.history, i.id ≤ st.db.offlineMessages.seq
  waiting : ∀ recipientId nowUnix, st.clock ≤ nowUnix →
    (fetchedRows st.db recipientId nowUnix).map item = due recipientId nowUnix st.history
  faithful : Faithful st.history

section Steps

variable {db : Database} {clock nowUnix : ℤ} {history : History Str Bytes ℤ}

theorem evictions_self (db : Database) : evictions db db = [] := by
  unfold evictions
  rw [List.map_eq_nil_iff, List.filter_eq_nil_iff]
  intro r hr
  simpa using hr

theorem evictions_insert (db db' : Database) (row : OfflineMessageRow)
    (hseq : db'.offlineMessages.seq = db.offlineMessages.seq) :
    evictions db { db' with offlineMessages := db'.offlineMessages.insert row } =
      evictions db db' := by
  unfold evictions
  refine congrArg (List.map _) (List.filter_congr fun r hr => ?_)
  have hle := db.offlineMessages.le_seq r hr
  have hold : r ≠ (db'.offlineMessages.seq + 1, row) := by
    rintro rfl
    simp only at hle
    omega
  rw [decide_eq_decide]
  refine not_congr ((Table.mem_insert).trans ?_)
  simp [hold]

theorem evictions_of_cons {db' : Database} {oldest : ℕ × OfflineMessageRow}
    (hrows : db.offlineMessages.rows = oldest :: db'.offlineMessages.rows) :
    evictions db db' = [.evicted oldest.1] := by
  have hsorted := db.offlineMessages.sorted
  unfold evictions
  rw [hrows] at hsorted ⊢
  have hfresh : oldest ∉ db'.offlineMessages.rows := fun hmem =>
    absurd ((List.pairwise_cons.1 hsorted).1 oldest hmem) (lt_irrefl _)
  rw [List.filter_cons_of_pos (by simpa using hfresh), List.filter_eq_nil_iff.2 (by simp)]
  rfl

theorem Tracks.advance (h : Tracks ⟨db, clock, history⟩) (hclock : clock ≤ nowUnix) :
    Tracks ⟨db, nowUnix, history⟩ :=
  { h with waiting := fun r now hnow => h.waiting r now (Int.le_trans hclock hnow) }

/-- Room is made by evicting the oldest item, when there is no room. -/
theorem Tracks.makeRoom (h : Tracks ⟨db, clock, history⟩) :
    Tracks ⟨makeRoom db, clock, evictions db (makeRoom db) ++ history⟩ ∧
      (OfflineStore.makeRoom db).offlineMessages.rows.length < maxTotalMessages := by
  have hseq := seq_makeRoom db
  rcases makeRoom_cases db with ⟨hroom, hrows⟩ | ⟨hfull, oldest, hrows⟩
  · have hmade : OfflineStore.makeRoom db = db := if_neg (not_le.2 hroom)
    rw [hmade, evictions_self]
    exact ⟨h, hroom⟩
  · rw [evictions_of_cons hrows]
    have hcount : ∀ r, pendingCount (OfflineStore.makeRoom db) r ≤ pendingCount db r :=
      pendingCount_makeRoom_le db
    have hlength : db.offlineMessages.rows.length =
        (OfflineStore.makeRoom db).offlineMessages.rows.length + 1 := by
      rw [hrows, List.length_cons]
    have htotal : db.offlineMessages.rows.length ≤ maxTotalMessages := h.caps.total
    have hroom : (OfflineStore.makeRoom db).offlineMessages.rows.length < maxTotalMessages := by
      omega
    refine ⟨⟨⟨fun r => (hcount r).trans (h.caps.recipient r), hroom.le⟩, h.numbered, ?_, ?_,
      h.faithful⟩, hroom⟩
    · exact fun i hi => (h.le_seq i hi).trans_eq hseq.symm
    · intro r now hnow
      have hwaiting := h.waiting r now hnow
      dsimp only at hwaiting ⊢
      rw [List.singleton_append, due_evicted, ← hwaiting]
      have hsorted := db.offlineMessages.sorted
      unfold fetchedRows
      rw [hrows] at hsorted ⊢
      -- the oldest row is the only one with its number
      have hothers : ∀ row ∈ (OfflineStore.makeRoom db).offlineMessages.rows,
          (item row).id != oldest.1 := by
        intro row hrow
        have hlt := (List.pairwise_cons.1 hsorted).1 row hrow
        exact bne_iff_ne.2 (Nat.ne_of_gt hlt)
      rw [List.filter_map, List.filter_filter, List.filter_cons]
      have hgone : ((item oldest).id != oldest.1) = false := by simp [item]
      simp only [Function.comp, hgone, Bool.false_and, Bool.false_eq_true, if_false]
      refine congrArg (List.map item) (List.filter_congr fun row hrow => ?_)
      rw [hothers row hrow, Bool.true_and]

/-- A stored payload is an accepted item. -/
theorem Tracks.insert (h : Tracks ⟨db, clock, history⟩) {recipientId : Str} (payload : Bytes)
    (hroom : pendingCount db recipientId < maxMessagesPerUser)
    (htotal : db.offlineMessages.rows.length < maxTotalMessages) :
    Tracks ⟨{ db with offlineMessages :=
        db.offlineMessages.insert ⟨recipientId, payload, nowUnix, nowUnix + ttlSeconds⟩ },
      clock, .accepted ⟨db.offlineMessages.seq + 1, recipientId, payload, nowUnix + ttlSeconds⟩ ::
        history⟩ := by
  let row : ℕ × OfflineMessageRow :=
    (db.offlineMessages.seq + 1, ⟨recipientId, payload, nowUnix, nowUnix + ttlSeconds⟩)
  have hbelow : ∀ i ∈ items history, i.id < db.offlineMessages.seq + 1 :=
    fun i hi => Nat.lt_succ_of_le (h.le_seq i hi)
  refine ⟨⟨fun r => ?_, ?_⟩, List.pairwise_cons.2 ⟨hbelow, h.numbered⟩, ?_, ?_, h.faithful⟩
  · show List.countP _ (db.offlineMessages.rows ++ [row]) ≤ _
    rw [List.countP_append]
    have hcap : pendingCount db r ≤ maxMessagesPerUser := h.caps.recipient r
    unfold pendingCount at hcap hroom
    by_cases hr : recipientId = r
    · subst hr
      rw [List.countP_cons_of_pos (by simp [row]), List.countP_nil]
      omega
    · rw [List.countP_cons_of_neg (by simpa [row] using hr), List.countP_nil]
      exact hcap
  · show (db.offlineMessages.rows ++ [row]).length ≤ _
    rw [List.length_append, List.length_singleton]
    exact htotal
  · intro i hi
    rcases List.mem_cons.1 hi with rfl | hi
    · exact le_rfl
    · exact (hbelow i hi).le
  · intro r now hnow
    have hwaiting := h.waiting r now hnow
    unfold fetchedRows at hwaiting ⊢
    dsimp only at hwaiting ⊢
    rw [due_accepted, ← hwaiting]
    show List.map item (List.filter _ (db.offlineMessages.rows ++ [row])) = _
    rw [List.filter_append, List.map_append]
    refine congrArg (_ ++ ·) ?_
    by_cases hr : recipientId = r <;> by_cases hexpired : now < nowUnix + ttlSeconds <;>
      simp [row, hr, hexpired, item]

theorem Tracks.fetch (h : Tracks ⟨db, clock, history⟩) (hclock : clock ≤ nowUnix)
    (recipientId : Str) :
    Tracks ⟨(fetchAndDelete db recipientId nowUnix).2, nowUnix,
      .fetched recipientId nowUnix (fetchAndDelete db recipientId nowUnix).1 :: history⟩ := by
  have hcount : ∀ r, pendingCount (fetchAndDelete db recipientId nowUnix).2 r ≤
      pendingCount db r := fun r => List.filter_sublist.countP_le
  have hlength : (fetchAndDelete db recipientId nowUnix).2.offlineMessages.rows.length ≤
      db.offlineMessages.rows.length := List.filter_sublist.length_le
  refine ⟨⟨fun r => Nat.le_trans (hcount r) (h.caps.recipient r),
    Nat.le_trans hlength h.caps.total⟩, h.numbered, h.le_seq, ?_, ?_, h.faithful⟩
  · intro r now hnow
    have hwaiting := h.waiting r now (Int.le_trans hclock hnow)
    dsimp only at hwaiting ⊢
    rw [due_fetched, ← hwaiting]
    show List.map item (List.filter _ (List.filter _ _)) = _
    rw [List.filter_filter]
    split_ifs with hr
    · rw [List.map_eq_nil_iff, List.filter_eq_nil_iff]
      intro row _
      by_cases hrow : row.2.recipientId = r <;> simp [hr, hrow]
    · refine congrArg (List.map item) (List.filter_congr fun row _ => ?_)
      by_cases hrow : row.2.recipientId = r
      · simp [hrow, Ne.symm hr]
      · simp [hrow]
  · rw [← h.waiting recipientId nowUnix hclock, fetchAndDelete_fst, List.map_map]
    rfl

theorem Tracks.cleanup (h : Tracks ⟨db, clock, history⟩) (hclock : clock ≤ nowUnix) :
    Tracks ⟨OfflineStore.cleanupExpired db nowUnix, nowUnix, history⟩ := by
  have hcount : ∀ r, pendingCount (OfflineStore.cleanupExpired db nowUnix) r ≤
      pendingCount db r := fun r => List.filter_sublist.countP_le
  have hlength : (OfflineStore.cleanupExpired db nowUnix).offlineMessages.rows.length ≤
      db.offlineMessages.rows.length := List.filter_sublist.length_le
  refine ⟨⟨fun r => Nat.le_trans (hcount r) (h.caps.recipient r),
    Nat.le_trans hlength h.caps.total⟩, h.numbered, h.le_seq, ?_, h.faithful⟩
  intro r now hnow
  have hwaiting := h.waiting r now (Int.le_trans hclock hnow)
  dsimp only at hwaiting hnow ⊢
  rw [← hwaiting]
  show List.map item (List.filter _ (List.filter _ _)) = _
  rw [List.filter_filter]
  -- what is not expired at `now` was not expired at the cleanup
  refine congrArg (List.map item) (List.filter_congr fun row _ => ?_)
  by_cases hexpired : now < row.2.expiresAt
  · have hkept : ¬ row.2.expiresAt ≤ nowUnix := by omega
    simp [hexpired, hkept]
  · simp [hexpired]

theorem Tracks.step {st : LoggedStore} {c : TimedCall} (h : Tracks st)
    (hclock : st.clock ≤ c.nowUnix) : Tracks (st.step c) := by
  obtain ⟨db, clock, history⟩ := st
  obtain ⟨call, nowUnix⟩ := c
  cases call with
  | fetchAndDelete recipientId => exact h.fetch hclock recipientId
  | cleanupExpired => exact h.cleanup hclock
  | save recipientId payload =>
    have hnow : Tracks ⟨db, nowUnix, history⟩ := h.advance hclock
    unfold LoggedStore.step
    dsimp only
    by_cases hfull : maxMessagesPerUser ≤ pendingCount db recipientId
    · rw [save_of_full db payload nowUnix hfull]
      dsimp only
      rw [evictions_self]
      exact hnow
    · have hroom := not_le.1 hfull
      obtain ⟨hmade, htotal⟩ := hnow.makeRoom
      have hcount := Nat.lt_of_le_of_lt (pendingCount_makeRoom_le db recipientId) hroom
      rw [save_of_room db payload nowUnix hroom]
      cases hblob : bindBlob payload with
      | none => exact hmade
      | some blob =>
        have hsame : blob = payload := by
          unfold bindBlob at hblob
          split_ifs at hblob
          exact (Option.some.inj hblob).symm
        subst hsame
        have hinserted := @Tracks.insert _ _ nowUnix _ hmade recipientId blob hcount htotal
        dsimp only
        rw [evictions_insert db _ _ (seq_makeRoom db)]
        exact hinserted

end Steps

/-! ## Runs -/

/-- What the mailboxes promise in a state: the caps, and that all fetches so far returned
exactly what was due, each item at most once and to its recipient only. -/
structure Refines (st : LoggedStore) : Prop where
  caps : WithinCaps st.db
  faithful : Faithful st.history
  once : ((delivered st.history).map fun e => e.2.id).Nodup
  own : ∀ r i, (r, i) ∈ delivered st.history → i ∈ items st.history ∧ i.recipient = r

theorem Tracks.refines {st : LoggedStore} (h : Tracks st) : Refines st :=
  ⟨h.caps, h.faithful, h.numbered.nodup_delivered, fun _ _ => of_mem_delivered⟩

/-- Which rows a call removes: a fetch all rows of its recipient and no other, the cleanup the
expired ones, and `save` only the row with the smallest number when the table is full. -/
def RemovesOnly (st : LoggedStore) (c : TimedCall) : Prop :=
  let rows := st.db.offlineMessages.rows
  let rows' := (st.step c).db.offlineMessages.rows
  match c.call with
  | .save _ _ => ∀ r ∈ rows, r ∉ rows' →
      rows.length = maxTotalMessages ∧ ∀ other ∈ rows, r.1 ≤ other.1
  | .fetchAndDelete recipientId => rows' = rows.filter fun r => r.2.recipientId != recipientId
  | .cleanupExpired => rows' = rows.filter fun r => c.nowUnix < r.2.expiresAt

theorem Tracks.removesOnly {st : LoggedStore} (h : Tracks st) (c : TimedCall) :
    RemovesOnly st c := by
  obtain ⟨call, nowUnix⟩ := c
  cases call with
  | fetchAndDelete recipientId => rfl
  | cleanupExpired =>
    refine List.filter_congr fun r _ => ?_
    rw [← decide_not, decide_eq_decide]
    omega
  | save recipientId payload =>
    intro r hr hgone
    have hrows : r ∉ (OfflineStore.makeRoom st.db).offlineMessages.rows ∨
        r ∉ st.db.offlineMessages.rows := by
      by_cases hfull : maxMessagesPerUser ≤ pendingCount st.db recipientId
      · right
        unfold LoggedStore.step at hgone
        dsimp only at hgone
        rwa [save_of_full st.db payload nowUnix hfull] at hgone
      · left
        unfold LoggedStore.step at hgone
        dsimp only at hgone
        rw [save_of_room st.db payload nowUnix (not_le.1 hfull)] at hgone
        cases hblob : bindBlob payload with
        | none =>
          rw [hblob] at hgone
          exact hgone
        | some blob =>
          rw [hblob] at hgone
          exact fun hmem => hgone (Table.mem_insert.2 (Or.inl hmem))
    have hmade := hrows.resolve_right (not_not.2 hr)
    rcases makeRoom_cases st.db with ⟨-, hsame⟩ | ⟨hfull, oldest, hcons⟩
    · rw [hsame] at hmade
      exact absurd hr hmade
    · have hsorted := st.db.offlineMessages.sorted
      refine ⟨Nat.le_antisymm h.caps.total hfull, ?_⟩
      rw [hcons] at hr hsorted ⊢
      rw [List.mem_cons.1 hr |>.resolve_right hmade]
      intro other hother
      rcases List.mem_cons.1 hother with rfl | hother
      · exact le_rfl
      · exact ((List.pairwise_cons.1 hsorted).1 other hother).le

theorem tracks_start {db : Database} (clock : ℤ) (hcaps : WithinCaps db) :
    Tracks (start db clock) := by
  have hitems : items (start db clock).history = (db.offlineMessages.rows.map item).reverse :=
    items_filled _
  refine ⟨hcaps, ?_, fun i hi => ?_, fun r now _ => ?_, faithful_filled _⟩
  · unfold Numbered
    rw [hitems, List.pairwise_reverse, List.pairwise_map]
    exact db.offlineMessages.sorted
  · rw [hitems] at hi
    obtain ⟨row, hrow, rfl⟩ := List.mem_map.1 (List.mem_reverse.1 hi)
    exact db.offlineMessages.le_seq row hrow
  · show _ = due r now (filled _)
    rw [due_filled, List.filter_map]
    refine congrArg (List.map item) (List.filter_congr fun row _ => ?_)
    by_cases hrow : row.2.recipientId = r <;> simp [item, hrow]

theorem clock_step (st : LoggedStore) (c : TimedCall) : (st.step c).clock = c.nowUnix := by
  unfold step
  split <;> rfl

theorem clock_le_of_pairwise {st : LoggedStore} {calls : List TimedCall}
    (h : (st.clock :: calls.map TimedCall.nowUnix).Pairwise fun t t' => t ≤ t') :
    AllSteps step (fun st c => st.clock ≤ c.nowUnix) st calls := by
  induction calls generalizing st with
  | nil => trivial
  | cons c calls ih =>
    obtain ⟨hfirst, hrest⟩ := List.pairwise_cons.1 h
    refine ⟨hfirst c.nowUnix List.mem_cons_self, ih ?_⟩
    rw [clock_step]
    exact hrest

/-- For every sequence of calls with a clock that never goes back, the store keeps its caps, every
fetch returns exactly what is due, and nothing else disappears. -/
theorem offline_store_refines_mailboxes (db : Database) (clock : ℤ) (hcaps : WithinCaps db)
    (calls : List TimedCall)
    (hclock : (clock :: calls.map TimedCall.nowUnix).Pairwise fun t t' => t ≤ t') :
    AllStates step Refines (start db clock) calls ∧
      AllSteps step RemovesOnly (start db clock) calls := by
  have htimes : AllSteps step (fun st c => st.clock ≤ c.nowUnix) (start db clock) calls :=
    clock_le_of_pairwise hclock
  have htracks : AllStates step Tracks (start db clock) calls :=
    AllStates.of_steps (tracks_start clock hcaps) (fun st c h => h.step) htimes
  exact ⟨htracks.mono fun st h => h.refines, htracks.toSteps fun st c h => h.removesOnly c⟩

/-- Two messages for `bob`, one for `carol`, and a day later `bob` fetches. -/
def threeMessages : List TimedCall :=
  [⟨.save (str "bob") [1], 0⟩, ⟨.save (str "carol") [2], 5⟩, ⟨.save (str "bob") [3], 9⟩,
    ⟨.cleanupExpired, 3600⟩, ⟨.fetchAndDelete (str "bob"), 86400⟩]

theorem withinCaps_empty : WithinCaps .empty :=
  ⟨fun _ => Nat.zero_le _, Nat.zero_le _⟩

theorem offline_store_refines_mailboxes_threeMessages :
    (∃ h, (final step (start .empty 0) threeMessages).history =
        .fetched (str "bob") 86400 [[1], [3]] :: h) ∧
      AllStates step Refines (start .empty 0) threeMessages ∧
      AllSteps step RemovesOnly (start .empty 0) threeMessages :=
  ⟨⟨_, rfl⟩, offline_store_refines_mailboxes .empty 0 withinCaps_empty threeMessages (by decide)⟩

end LoggedStore

end Ircord

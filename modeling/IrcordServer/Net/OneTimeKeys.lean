import IrcordServer.Net.KeyStrands
import IrcordServer.Run

/-!
# One-time pre-keys are handed out once

The unused rows of `one_time_prekeys` are a stock of tickets, numbered by the primary key:
`store_opk` puts one in, `consume_opk` takes one out, and `clear_key_material` drops those of a
user.  No interleaving of the handlers disturbs it, because each of the three is one operation.
-/

open Container Run Sql Tickets

namespace Ircord

namespace KeyLedger

variable {d : Draws} {l l' : KeyLedger} {p : KeyPoint}

/-- The rows that are not used. -/
def unused (l : KeyLedger) : List (ℕ × OneTimePrekeyRow) :=
  l.db.oneTimePrekeys.rows.filter fun r => !r.2.used

/-- A row is stored by its user and handed out once, in a bundle for that user, and not after it was
cleared.  A bundle without a key is sent when the user has no unused row. -/
structure OneTimeUse (l : KeyLedger) : Prop where
  once : Once l.opks
  stored : ∀ who n row, .put who n row ∈ l.opks → row.userId = who.userId
  handedOut : ∀ bundle n row, .take bundle n row ∈ l.opks →
    bundle.recipientFor = row.userId ∧ bundle.oneTimePrekey = row.opkPub
  bundles : takers l.opks = l.sent.filter fun bundle => !bundle.oneTimePrekey.isEmpty
  consume : ∀ u, (UserStore.consumeOpk l.db u).1 = [] ↔
    ∀ r ∈ l.db.oneTimePrekeys.rows, r.2.userId = u → r.2.used = true

/-- What makes it so. -/
structure Sound (l : KeyLedger) : Prop where
  stock : Stock l.unused l.db.oneTimePrekeys.seq l.opks
  nonempty : ∀ r ∈ l.db.oneTimePrekeys.rows, r.2.opkPub ≠ []
  stored : ∀ who n row, .put who n row ∈ l.opks → row.userId = who.userId
  handedOut : ∀ bundle n row, .take bundle n row ∈ l.opks →
    bundle.recipientFor = row.userId ∧ bundle.oneTimePrekey = row.opkPub
  bundles : takers l.opks = l.sent.filter fun bundle => !bundle.oneTimePrekey.isEmpty

theorem mem_unused {r : ℕ × OneTimePrekeyRow} :
    r ∈ l.unused ↔ r ∈ l.db.oneTimePrekeys.rows ∧ r.2.used = false := by
  rw [unused, List.mem_filter, Bool.not_eq_true']

theorem sound_empty : empty.Sound where
  stock := stock_empty
  nonempty _ h := absurd h List.not_mem_nil
  stored _ _ _ h := absurd h List.not_mem_nil
  handedOut _ _ _ h := absurd h List.not_mem_nil
  bundles := rfl

theorem Sound.oneTimeUse (h : l.Sound) : l.OneTimeUse where
  once := h.stock.once
  stored := h.stored
  handedOut := h.handedOut
  bundles := h.bundles
  consume u := by
    rcases UserStore.consumeOpk_cases l.db u with ⟨e, hused⟩ | ⟨n, row, hrow, hu, hunused, e⟩
    · rw [e]
      exact iff_of_true rfl hused
    · rw [e]
      refine iff_of_false (h.nonempty _ hrow) fun hall => ?_
      have hused : row.used = true := hall _ hrow hu
      rw [hunused] at hused
      cases hused

/-! ## One operation -/

/-- An operation that leaves the one-time pre-keys alone. -/
theorem Sound.of_same (h : l.Sound) (hrows : l'.db.oneTimePrekeys = l.db.oneTimePrekeys)
    (hopks : l'.opks = l.opks) (hsent : l'.sent = l.sent) : l'.Sound := by
  refine ⟨?_, ?_, ?_, ?_, ?_⟩
  · rw [unused, hrows, hopks]
    exact h.stock
  · rw [hrows]
    exact h.nonempty
  · rw [hopks]
    exact h.stored
  · rw [hopks]
    exact h.handedOut
  · rw [hopks, hsent]
    exact h.bundles

theorem sound_upsertSignedPrekey (h : l.Sound) {who : KeySession} {spk : Option SignedPrekey}
    (hl : l.upsertSignedPrekey d who spk = some l') : l'.Sound := by
  cases spk with
  | none =>
    cases hl
    exact h
  | some spk =>
    dsimp only [upsertSignedPrekey] at hl
    split at hl
    · cases hl
    · rename_i db hdb
      cases hl
      exact h.of_same (UserStore.of_upsertSignedPrekey hdb).2.1 rfl rfl

theorem sound_storeOpk (h : l.Sound) {who : KeySession} {opk : Bytes}
    (hl : l.storeOpk who opk = some l') : l'.Sound := by
  unfold storeOpk at hl
  split at hl
  · cases hl
  · rename_i db hdb
    cases hl
    obtain ⟨hopk, -, -, hrows⟩ := UserStore.of_storeOpk hdb
    have hnew : db.oneTimePrekeys.minus l.db.oneTimePrekeys =
        [(l.db.oneTimePrekeys.seq + 1, ⟨who.userId, opk, false⟩)] := by
      rw [hrows, Table.minus_insert]
    rw [hnew]
    refine ⟨?_, fun r hr => ?_, fun who' n row hput => ?_, fun bundle n row htake => ?_, h.bundles⟩
    · show Stock _ db.oneTimePrekeys.seq _
      rw [hrows]
      refine h.stock.put who _ fun r hr => ?_
      obtain ⟨hmem, hunused⟩ := mem_unused.1 hr
      rw [hrows] at hmem
      exact (Table.mem_insert.1 hmem).imp (fun hmem => mem_unused.2 ⟨hmem, hunused⟩) id
    · dsimp only at hr
      rw [hrows] at hr
      rcases Table.mem_insert.1 hr with hr | rfl
      · exact h.nonempty r hr
      · exact hopk
    · rcases List.mem_cons.1 hput with e | hput
      · cases e
        rfl
      · exact h.stored who' n row hput
    · rcases List.mem_cons.1 htake with e | htake
      · cases e
      · exact h.handedOut bundle n row htake

theorem sound_clearKeyMaterial (h : l.Sound) (userId : Str) :
    (l.clearKeyMaterial userId).Sound := by
  refine ⟨h.stock.drop (fun n hn => ?_) fun r hr => ?_, fun r hr => ?_, fun who n row hput => ?_,
    fun bundle n row htake => ?_, h.bundles⟩
  · obtain ⟨r, hr, rfl⟩ := List.mem_map.1 hn
    exact l.db.oneTimePrekeys.le_seq r (Table.mem_minus.1 hr).1
  · obtain ⟨hmem, hunused⟩ := mem_unused.1 hr
    have hold := (UserStore.mem_rows_clearKeyMaterial.1 hmem).1
    refine ⟨mem_unused.2 ⟨hold, hunused⟩, fun hn => ?_⟩
    -- a row that was removed has another number than one that was not
    obtain ⟨r', hr', e⟩ := List.mem_map.1 hn
    obtain ⟨hold', hgone⟩ := Table.mem_minus.1 hr'
    rw [Table.eq_of_number hold' hold e] at hgone
    exact hgone hmem
  · exact h.nonempty r (UserStore.mem_rows_clearKeyMaterial.1 hr).1
  · rcases List.mem_cons.1 hput with e | hput
    · cases e
    · exact h.stored who n row hput
  · rcases List.mem_cons.1 htake with e | htake
    · cases e
    · exact h.handedOut bundle n row htake

/-- No one-time pre-key is left: nothing changes but that the bundle was sent. -/
theorem sendBundle_of_empty {kr : KeyRequest}
    (e : UserStore.consumeOpk l.db kr.userId = ([], l.db)) (target : User)
    (spk : Option SignedPrekey) :
    l.sendBundle kr target spk = { l with sent := keyBundle kr target spk [] :: l.sent } := by
  unfold sendBundle
  rw [e]
  dsimp only
  rw [Table.minus_self, List.map_nil, List.nil_append]

theorem sound_sendBundle (h : l.Sound) (kr : KeyRequest) (target : User)
    (spk : Option SignedPrekey) : (l.sendBundle kr target spk).Sound := by
  rcases UserStore.consumeOpk_cases l.db kr.userId with ⟨e, -⟩ | ⟨n, row, hrow, hu, hunused, e⟩
  · rw [sendBundle_of_empty e]
    exact ⟨h.stock, h.nonempty, h.stored, h.handedOut, h.bundles⟩
  · have hchanged : ({ row with used := true } : OneTimePrekeyRow) ≠ row := by
      intro e
      rw [← e] at hunused
      cases hunused
    have hminus : l.db.oneTimePrekeys.minus (l.db.markOneTimePrekeyUsed n).oneTimePrekeys =
        [(n, row)] := Table.minus_update hrow hchanged
    have hmarked : ∀ r ∈ (l.db.markOneTimePrekeyUsed n).oneTimePrekeys.rows, r.2.used = false →
        r ∈ l.db.oneTimePrekeys.rows ∧ r.1 ≠ n := by
      intro r hr hr'
      obtain ⟨y, hy, rfl⟩ := List.mem_map.1 hr
      split_ifs at hr' ⊢ with hn
      · exact ⟨hy, hn⟩
    unfold sendBundle
    rw [e]
    dsimp only
    rw [hminus]
    refine ⟨h.stock.take _ (mem_unused.2 ⟨hrow, hunused⟩) fun r hr => ?_, fun r hr => ?_,
      fun who n' row' hput => ?_, fun bundle n' row' htake => ?_, ?_⟩
    · obtain ⟨hmem, hr'⟩ := mem_unused.1 hr
      obtain ⟨hold, hne⟩ := hmarked r hmem hr'
      exact ⟨mem_unused.2 ⟨hold, hr'⟩, hne⟩
    · obtain ⟨y, hy, -, e | e⟩ := Table.mem_update hr
      · rw [e]
        exact h.nonempty y hy
      · rw [e]
        exact h.nonempty y hy
    · rcases List.mem_cons.1 hput with e | hput
      · cases e
      · exact h.stored who n' row' hput
    · rcases List.mem_cons.1 htake with e | htake
      · cases e
        exact ⟨hu.symm, rfl⟩
      · exact h.handedOut bundle n' row' htake
    · have hnonempty : (!(keyBundle kr target spk row.opkPub).oneTimePrekey.isEmpty) = true := by
        simpa [keyBundle] using h.nonempty _ hrow
      show _ :: takers l.opks = _
      rw [h.bundles, List.filter_cons, if_pos hnonempty]

/-! ## Runs -/

theorem sound_writes (h : l.Sound) (hl : KeyStrands.Writes d l p l') : l'.Sound := by
  cases hl with
  | insert hdb => exact h.of_same (UserStore.samePrekeys_insert hdb).oneTimePrekeys rfl rfl
  | clear => exact sound_clearKeyMaterial h _
  | update hdb =>
    exact h.of_same (UserStore.samePrekeys_updateIdentityKey hdb).oneTimePrekeys rfl rfl
  | upsert hl => exact sound_upsertSignedPrekey h hl
  | password => exact h.of_same (UserStore.samePrekeys_setPassword _ _).oneTimePrekeys rfl rfl
  | upload hl => exact sound_upsertSignedPrekey h hl
  | store hl => exact sound_storeOpk h hl
  | bundle => exact sound_sendBundle h _ _ _

end KeyLedger

namespace KeyStrands

variable {crypto : Crypto} {st : KeyStrands}

theorem sound_start : start.ledger.Sound := KeyLedger.sound_empty

theorem sound_step (h : st.ledger.Sound) (m : KeyMove) : (st.step crypto m).ledger.Sound := by
  rcases @ledger_step crypto st m with e | ⟨s, p, -, -, hwrites⟩
  · rw [e]
    exact h
  · exact KeyLedger.sound_writes h hwrites

/-- However the key handlers of all sessions interleave, every one-time pre-key is handed out at
most once, for the user who stored it. -/
theorem one_time_prekeys_once (crypto : Crypto) (ms : List KeyMove) :
    AllStates (step crypto) (fun st => st.ledger.OneTimeUse) start ms := by
  have hsound : AllStates (step crypto) (fun st => st.ledger.Sound) start ms :=
    @AllStates.of_invariant _ _ (step crypto) (fun st => st.ledger.Sound) _ sound_start
      (fun st m h => sound_step h m) ms
  exact hsound.mono fun st h => h.oneTimeUse

end KeyStrands

end Ircord

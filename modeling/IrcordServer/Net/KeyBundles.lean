import IrcordServer.Net.Authentication
import IrcordServer.Net.OneTimeKeys

/-!
# Coherent key bundles

A `KEY_BUNDLE` is put together from three reads, and a recovery replaces the keys of a user in three
writes.  The bundles are coherent as long as every operation on pre-keys finds in the users table
the identity key that it is about (`InForce`).  Nothing in the code sees to that.
-/

open Container Run Sql Tickets

namespace Ircord

namespace KeyLedger

variable {d : Draws} {l l' : KeyLedger} {p : KeyPoint}

/-- The pre-keys of the bundle were stored for sessions of its user that had presented the identity
key in it. -/
structure CoherentBundle (l : KeyLedger) (bundle : KeyBundle) : Prop where
  signedPrekey : bundle.signedPrekey ≠ [] →
    (⟨bundle.recipientFor, bundle.identityPub⟩, ⟨bundle.signedPrekey, bundle.spkSignature⟩) ∈ l.spks
  oneTimePrekey : bundle.oneTimePrekey ≠ [] → ∃ n,
    .put ⟨bundle.recipientFor, bundle.identityPub⟩ n
      ⟨bundle.recipientFor, bundle.oneTimePrekey, false⟩ ∈ l.opks

def Coherent (l : KeyLedger) : Prop := ∀ bundle ∈ l.sent, l.CoherentBundle bundle

/-! ## The condition -/

/-- The user has an unused one-time pre-key. -/
def HasUnused (l : KeyLedger) (userId : Str) : Prop :=
  ∃ r ∈ l.db.oneTimePrekeys.rows, r.2.userId = userId ∧ r.2.used = false

def HasPrekeys (l : KeyLedger) (userId : Str) : Prop :=
  (l.db.signedPrekeys.lookup userId).isSome = true ∨ l.HasUnused userId

instance (userId : Str) : Decidable (l.HasUnused userId) :=
  inferInstanceAs (Decidable (∃ r ∈ l.db.oneTimePrekeys.rows, _ ∧ _))

instance (userId : Str) : Decidable (l.HasPrekeys userId) :=
  inferInstanceAs (Decidable (_ ∨ _))

/-- The user and the identity key that the operation at `p` is about, if it touches a pre-key. -/
def about (l : KeyLedger) : KeyPoint → Option KeySession
  | .updateIdentityKey auth => if l.HasPrekeys auth.userId then some auth.session else none
  | .upsertSignedPrekey auth _ => auth.spk?.map fun _ => auth.session
  | .upload who ku => ku.spk?.map fun _ => who
  | .storeOpks who opks => opks.head?.map fun _ => who
  | .getSignedPrekey kr target =>
    (UserStore.getSignedPrekey l.db kr.userId).map fun _ => ⟨kr.userId, target.identityPub⟩
  | .consumeOpk kr target _ =>
    if l.HasUnused kr.userId then some ⟨kr.userId, target.identityPub⟩ else none
  | _ => none

/-- The identity key of `who` is the one in the users table. -/
def Holds (l : KeyLedger) (who : KeySession) : Prop :=
  UserStore.identityKey l.db who.userId = some who.identityPub

instance (who : KeySession) : Decidable (l.Holds who) := inferInstanceAs (Decidable (_ = _))

/-- The key that the operation is about is in force when it is carried out. -/
def InForce (l : KeyLedger) (p : KeyPoint) : Prop := ∀ who ∈ l.about p, l.Holds who

instance (p : KeyPoint) : Decidable (l.InForce p) :=
  inferInstanceAs (Decidable (∀ who ∈ l.about p, _))

/-! ## The invariant -/

/-- The pre-keys in the tables were stored for sessions that had presented the identity key that is
in the users table now. -/
structure Keyed (l : KeyLedger) : Prop where
  spk : ∀ u row, l.db.signedPrekeys.lookup u = some row →
    ∃ key, l.Holds ⟨u, key⟩ ∧ (⟨u, key⟩, ⟨row.spkPub, row.spkSig⟩) ∈ l.spks
  opk : ∀ r ∈ l.unused, ∃ key, l.Holds ⟨r.2.userId, key⟩ ∧ .put ⟨r.2.userId, key⟩ r.1 r.2 ∈ l.opks
  coherent : l.Coherent

theorem keyed_empty : empty.Keyed where
  spk u row h := by cases h
  opk r h := absurd h List.not_mem_nil
  coherent bundle h := absurd h List.not_mem_nil

theorem CoherentBundle.mono {bundle : KeyBundle} (h : l.CoherentBundle bundle)
    (hspks : l.spks ⊆ l'.spks) (hopks : l.opks ⊆ l'.opks) : l'.CoherentBundle bundle where
  signedPrekey hne := hspks (h.signedPrekey hne)
  oneTimePrekey hne := by
    obtain ⟨n, hput⟩ := h.oneTimePrekey hne
    exact ⟨n, hopks hput⟩

theorem hasPrekeys_of_mem_unused {r : ℕ × OneTimePrekeyRow} (hr : r ∈ l.unused) :
    l.HasPrekeys r.2.userId :=
  Or.inr ⟨r, (mem_unused.1 hr).1, rfl, (mem_unused.1 hr).2⟩

theorem hasPrekeys_of_lookup {u : Str} {row : SignedPrekeyRow}
    (h : l.db.signedPrekeys.lookup u = some row) : l.HasPrekeys u :=
  Or.inl (Option.isSome_of_eq_some h)

/-- An operation that stores no pre-key, and no identity key for a user who has pre-keys. -/
theorem Keyed.of_fewer (h : l.Keyed)
    (hholds : ∀ who, l.HasPrekeys who.userId → l.Holds who → l'.Holds who)
    (hspk : ∀ u row, l'.db.signedPrekeys.lookup u = some row →
      l.db.signedPrekeys.lookup u = some row)
    (hopk : ∀ r ∈ l'.unused, r ∈ l.unused) (hspks : l.spks ⊆ l'.spks) (hopks : l.opks ⊆ l'.opks)
    (hcoherent : l'.Coherent) : l'.Keyed := by
  refine ⟨fun u row hrow => ?_, fun r hr => ?_, hcoherent⟩
  · obtain ⟨key, hkey, hstored⟩ := h.spk u row (hspk u row hrow)
    exact ⟨key, hholds _ (hasPrekeys_of_lookup (hspk u row hrow)) hkey, hspks hstored⟩
  · obtain ⟨key, hkey, hstored⟩ := h.opk r (hopk r hr)
    exact ⟨key, hholds _ (hasPrekeys_of_mem_unused (hopk r hr)) hkey, hopks hstored⟩

/-- An operation that writes to the users table only. -/
theorem Keyed.of_users (h : l.Keyed) {db : Database} (hsame : UserStore.SamePrekeys l.db db)
    (hholds : ∀ who, l.HasPrekeys who.userId → l.Holds who → (l.withDb db).Holds who) :
    (l.withDb db).Keyed := by
  refine h.of_fewer hholds (fun u row hrow => ?_) (fun r hr => ?_) (List.Subset.refl _)
    (List.Subset.refl _) fun bundle hbundle => ?_
  · rw [← hsame.signedPrekeys]
    exact hrow
  · rw [mem_unused] at hr ⊢
    rw [← hsame.oneTimePrekeys]
    exact hr
  · exact (h.coherent bundle hbundle).mono (List.Subset.refl _) (List.Subset.refl _)

/-! ## One operation -/

theorem keyed_insert (h : l.Keyed) {user : User} {db : Database}
    (hdb : UserStore.insert l.db user = .ok db) : (l.withDb db).Keyed := by
  refine h.of_users (UserStore.samePrekeys_insert hdb) fun who hprekeys hwho => ?_
  unfold Holds UserStore.identityKey at hwho ⊢
  show (db.users.lookup who.userId).map _ = _
  rw [Database.lookup_users_insertUser l.db hdb, if_neg]
  · exact hwho
  · -- the new user had no row
    intro e
    rw [e, UserStore.lookup_of_insert hdb] at hwho
    cases hwho

theorem keyed_update (h : l.Keyed) {auth : AuthResponse} {db : Database}
    (hforce : l.InForce (.updateIdentityKey auth))
    (hdb : UserStore.updateIdentityKey l.db auth.userId auth.identityPub = .ok db) :
    (l.withDb db).Keyed := by
  refine h.of_users (UserStore.samePrekeys_updateIdentityKey hdb) fun who hprekeys hwho => ?_
  unfold Holds UserStore.identityKey at hwho ⊢
  show (db.users.lookup who.userId).map _ = _
  rw [UserStore.lookup_users_updateIdentityKey hdb]
  split_ifs with hu
  · -- a user who has pre-keys gets the key that it has
    have hsame : l.Holds auth.session :=
      hforce auth.session (by rw [about, ← hu, if_pos hprekeys]; rfl)
    unfold Holds UserStore.identityKey at hsame
    have hkey : who.identityPub = auth.identityPub := by
      rw [hu, show l.db.users.lookup auth.userId = l.db.users.lookup auth.session.userId from rfl,
        hsame] at hwho
      exact (Option.some.inj hwho).symm
    obtain ⟨row, hrow, -⟩ := Option.map_eq_some_iff.1 hwho
    rw [hrow, hkey]
    rfl
  · exact hwho

theorem keyed_password (h : l.Keyed) (userId : Str) (hash : Option PwHash) :
    (l.withDb (UserStore.setPassword l.db userId hash).2).Keyed := by
  refine h.of_users (UserStore.samePrekeys_setPassword userId hash) fun who _ hwho => ?_
  exact (UserStore.lookup_users_setPassword userId hash who.userId).trans hwho

theorem keyed_clear (h : l.Keyed) (userId : Str) : (l.clearKeyMaterial userId).Keyed := by
  refine h.of_fewer (fun who _ hwho => hwho) (fun u row hrow => ?_) (fun r hr => ?_)
    (List.Subset.refl _) (List.subset_cons_self _ _) fun bundle hbundle => ?_
  · have hlookup := hrow
    unfold clearKeyMaterial at hlookup
    dsimp only at hlookup
    rw [UserStore.lookup_signedPrekeys_clearKeyMaterial] at hlookup
    split_ifs at hlookup
    exact hlookup
  · obtain ⟨hmem, hunused⟩ := mem_unused.1 hr
    exact mem_unused.2 ⟨(UserStore.mem_rows_clearKeyMaterial.1 hmem).1, hunused⟩
  · exact (h.coherent bundle hbundle).mono (List.Subset.refl _) (List.subset_cons_self _ _)

theorem keyed_upsert (h : l.Keyed) {who : KeySession} {spk : Option SignedPrekey}
    (hforce : ∀ s ∈ spk, l.Holds who) (hl : l.upsertSignedPrekey d who spk = some l') :
    l'.Keyed := by
  cases spk with
  | none =>
    cases hl
    exact h
  | some spk =>
    have hwho := hforce spk rfl
    dsimp only [upsertSignedPrekey] at hl
    split at hl
    · cases hl
    · rename_i db hdb
      cases hl
      obtain ⟨husers, hopks, hspks⟩ := UserStore.of_upsertSignedPrekey hdb
      have hholds (who : KeySession) (hwho : l.Holds who) :
          UserStore.identityKey db who.userId = some who.identityPub := by
        rw [UserStore.identityKey, husers]
        exact hwho
      refine ⟨fun u row hrow => ?_, fun r hr => ?_, fun bundle hbundle => ?_⟩
      · dsimp only at hrow
        rw [hspks, UnorderedMap.lookup_insert_ite] at hrow
        split_ifs at hrow with hu
        · cases hrow
          rw [hu]
          exact ⟨who.identityPub, hholds who hwho, List.mem_cons_self⟩
        · obtain ⟨key, hkey, hstored⟩ := h.spk u row hrow
          exact ⟨key, hholds _ hkey, List.mem_cons_of_mem _ hstored⟩
      · rw [mem_unused] at hr
        dsimp only at hr
        rw [hopks] at hr
        obtain ⟨key, hkey, hstored⟩ := h.opk r (mem_unused.2 hr)
        exact ⟨key, hholds _ hkey, hstored⟩
      · exact (h.coherent bundle hbundle).mono (List.subset_cons_self _ _) (List.Subset.refl _)

theorem keyed_store (h : l.Keyed) {who : KeySession} {opk : Bytes} (hwho : l.Holds who)
    (hl : l.storeOpk who opk = some l') : l'.Keyed := by
  unfold storeOpk at hl
  split at hl
  · cases hl
  · rename_i db hdb
    cases hl
    obtain ⟨-, husers, hspks, hopks⟩ := UserStore.of_storeOpk hdb
    have hholds (who : KeySession) (hwho : l.Holds who) :
        UserStore.identityKey db who.userId = some who.identityPub := by
      rw [UserStore.identityKey, husers]
      exact hwho
    have hnew : db.oneTimePrekeys.minus l.db.oneTimePrekeys =
        [(l.db.oneTimePrekeys.seq + 1, ⟨who.userId, opk, false⟩)] := by
      rw [hopks, Table.minus_insert]
    rw [hnew]
    refine ⟨fun u row hrow => ?_, fun r hr => ?_, fun bundle hbundle => ?_⟩
    · dsimp only at hrow
      rw [hspks] at hrow
      obtain ⟨key, hkey, hstored⟩ := h.spk u row hrow
      exact ⟨key, hholds _ hkey, hstored⟩
    · obtain ⟨hmem, hunused⟩ := mem_unused.1 hr
      rw [hopks] at hmem
      rcases Table.mem_insert.1 hmem with hmem | rfl
      · obtain ⟨key, hkey, hstored⟩ := h.opk r (mem_unused.2 ⟨hmem, hunused⟩)
        exact ⟨key, hholds _ hkey, List.mem_cons_of_mem _ hstored⟩
      · exact ⟨who.identityPub, hholds who hwho, List.mem_cons_self⟩
    · exact (h.coherent bundle hbundle).mono (List.Subset.refl _) (List.subset_cons_self _ _)

theorem keyed_bundle (h : l.Keyed) {kr : KeyRequest} {target : User} {spk : Option SignedPrekey}
    (hforce : l.InForce (.consumeOpk kr target spk))
    (hread : ∀ k ∈ spk, (⟨kr.userId, target.identityPub⟩, k) ∈ l.spks) :
    (l.sendBundle kr target spk).Keyed := by
  have hsigned (opk : Bytes) (hne : (keyBundle kr target spk opk).signedPrekey ≠ []) :
      (⟨kr.userId, target.identityPub⟩, ⟨(keyBundle kr target spk opk).signedPrekey,
        (keyBundle kr target spk opk).spkSignature⟩) ∈ l.spks := by
    cases spk with
    | none => exact absurd rfl hne
    | some k => exact hread k rfl
  rcases UserStore.consumeOpk_cases l.db kr.userId with ⟨e, -⟩ | ⟨n, row, hrow, hu, hunused, e⟩
  · rw [sendBundle_of_empty e]
    refine ⟨h.spk, h.opk, fun bundle hbundle => ?_⟩
    rcases List.mem_cons.1 hbundle with rfl | hbundle
    · exact ⟨hsigned [], fun hne => absurd rfl hne⟩
    · exact (h.coherent bundle hbundle).mono (List.Subset.refl _) (List.Subset.refl _)
  · have hmem : (n, row) ∈ l.unused := mem_unused.2 ⟨hrow, hunused⟩
    have hhas : l.HasUnused kr.userId := ⟨_, hrow, hu, hunused⟩
    have htarget : l.Holds ⟨kr.userId, target.identityPub⟩ :=
      hforce _ (by rw [about, if_pos hhas]; rfl)
    obtain ⟨key, hkey, hput⟩ := h.opk _ hmem
    -- the row was stored under the identity key that the bundle carries
    have hsame : key = target.identityPub := by
      have hkey' : l.Holds ⟨kr.userId, key⟩ := hu ▸ hkey
      exact Option.some.inj (hkey'.symm.trans htarget)
    rw [hsame, hu] at hput
    obtain ⟨userId, opkPub, used⟩ := row
    cases hu
    cases hunused
    have hsub : ∀ events : List (Tickets.Event OneTimePrekeyRow KeySession KeyBundle),
        l.opks ⊆ events ++ l.opks := fun events => List.subset_append_right _ _
    unfold sendBundle
    rw [e]
    dsimp only
    refine h.of_fewer (fun who _ hwho => hwho) (fun u row hrow => hrow) (fun r hr => ?_)
      (List.Subset.refl _) (hsub _) fun bundle hbundle => ?_
    · obtain ⟨hr, hr'⟩ := mem_unused.1 hr
      obtain ⟨y, hy, rfl⟩ := List.mem_map.1 hr
      split_ifs at hr' ⊢
      exact mem_unused.2 ⟨hy, hr'⟩
    · rcases List.mem_cons.1 hbundle with rfl | hbundle
      · exact ⟨hsigned _, fun _ => ⟨n, hsub _ hput⟩⟩
      · exact (h.coherent bundle hbundle).mono (List.Subset.refl _) (hsub _)

theorem keyed_writes (h : l.Keyed) (hforce : l.InForce p)
    (hread : ∀ kr target k, p = .consumeOpk kr target (some k) →
      (⟨kr.userId, target.identityPub⟩, k) ∈ l.spks)
    (hl : KeyStrands.Writes d l p l') : l'.Keyed := by
  cases hl with
  | insert hdb => exact keyed_insert h hdb
  | clear => exact keyed_clear h _
  | update hdb => exact keyed_update h hforce hdb
  | @upsert auth isNew l' hl =>
    refine keyed_upsert h (fun k hk => hforce _ ?_) hl
    rw [about, Option.mem_def.1 hk]
    rfl
  | password => exact keyed_password h _ _
  | @upload who ku l' hl =>
    refine keyed_upsert h (fun k hk => hforce _ ?_) hl
    rw [about, Option.mem_def.1 hk]
    rfl
  | store hl => exact keyed_store h (hforce _ rfl) hl
  | @bundle kr target spk =>
    exact keyed_bundle h hforce fun k hk => hread kr target k (by rw [Option.mem_def.1 hk])

/-- What was stored stays on record. -/
theorem spks_writes (hl : KeyStrands.Writes d l p l') : l.spks ⊆ l'.spks := by
  have hupsert {who : KeySession} {spk : Option SignedPrekey}
      (hl : l.upsertSignedPrekey d who spk = some l') : l.spks ⊆ l'.spks := by
    cases spk with
    | none =>
      cases hl
      exact List.Subset.refl _
    | some spk =>
      dsimp only [upsertSignedPrekey] at hl
      split at hl
      · cases hl
      · cases hl
        exact List.subset_cons_self _ _
  cases hl with
  | upsert hl => exact hupsert hl
  | upload hl => exact hupsert hl
  | store hl =>
    unfold storeOpk at hl
    split at hl
    · cases hl
    · cases hl
      exact List.Subset.refl _
  | _ => exact List.Subset.refl _

end KeyLedger

namespace KeyStrands

variable {crypto : Crypto} {d : Draws} {st : KeyStrands} {s : SessionId}

/-! ## What a `KEY_REQUEST` has read -/

/-- The handler of a session ends, or goes on at a point that has a signed pre-key only if it was
just read. -/
theorem points_nextFrom (p : KeyPoint) :
    (st.nextFrom crypto d s p).points = st.points.erase s ∨
      ∃ q, (st.nextFrom crypto d s p).points = st.points.insert s q ∧
        ∀ kr target spk, q = .consumeOpk kr target spk →
          p = .getSignedPrekey kr target ∧
            spk = UserStore.getSignedPrekey st.ledger.db kr.userId := by
  have hgoto {l : KeyLedger} {q : KeyPoint}
      (hq : ∀ kr target spk, q ≠ .consumeOpk kr target spk) :
      ∃ q', (st.goto s l q).points = st.points.insert s q' ∧
        ∀ kr target spk, q' = .consumeOpk kr target spk →
          p = .getSignedPrekey kr target ∧
            spk = UserStore.getSignedPrekey st.ledger.db kr.userId :=
    ⟨q, rfl, fun kr target spk e => absurd e (hq kr target spk)⟩
  unfold nextFrom
  cases p with
  | lookUp auth =>
    right
    dsimp only
    split
    · exact hgoto (by simp)
    · split
      · exact hgoto (by simp)
      · exact hgoto (by simp)
  | insert auth =>
    dsimp only
    split
    · exact Or.inl rfl
    · exact Or.inr (hgoto (by simp))
  | mismatch auth =>
    dsimp only
    split
    · exact Or.inr (hgoto (by simp))
    · exact Or.inl rfl
  | verifyPassword auth =>
    dsimp only
    split
    · exact Or.inr (hgoto (by simp))
    · exact Or.inl rfl
  | clearKeyMaterial auth => exact Or.inr (hgoto (by simp))
  | updateIdentityKey auth =>
    dsimp only
    split
    · exact Or.inl rfl
    · exact Or.inr (hgoto (by simp))
  | upsertSignedPrekey auth isNew =>
    dsimp only
    split
    · exact Or.inl rfl
    · cases isNew with
      | false => exact Or.inl rfl
      | true => exact Or.inr (hgoto (by simp))
  | backfill auth =>
    dsimp only
    split
    · exact Or.inr (hgoto (by simp))
    · exact Or.inl rfl
  | setPassword auth =>
    left
    dsimp only
    split_ifs <;> rfl
  | upload who ku =>
    dsimp only
    split
    · exact Or.inl rfl
    · exact Or.inr (hgoto (by simp))
  | storeOpks who opks =>
    cases opks with
    | nil => exact Or.inl rfl
    | cons opk opks =>
      dsimp only
      split
      · exact Or.inl rfl
      · exact Or.inr (hgoto (by simp))
  | request kr =>
    dsimp only
    split
    · exact Or.inl rfl
    · exact Or.inr (hgoto (by simp))
  | getSignedPrekey kr target =>
    right
    refine ⟨_, rfl, fun kr' target' spk e => ?_⟩
    cases e
    exact ⟨rfl, rfl⟩
  | consumeOpk kr target spk => exact Or.inl rfl

/-- A handler that is about to send a bundle was there before, or has just read the signed
pre-key. -/
theorem reads_step {m : KeyMove} {kr : KeyRequest} {target : User} {spk : Option SignedPrekey}
    (h : (st.step crypto m).points.lookup s = some (.consumeOpk kr target spk)) :
    st.points.lookup s = some (.consumeOpk kr target spk) ∨
      m.act = .next s ∧ st.points.lookup s = some (.getSignedPrekey kr target) ∧
        spk = UserStore.getSignedPrekey st.ledger.db kr.userId := by
  obtain ⟨d, act⟩ := m
  have hgoto {t : SessionId} {p : KeyPoint} (hp : p ≠ .consumeOpk kr target spk)
      (h : (st.goto t st.ledger p).points.lookup s = some (.consumeOpk kr target spk)) :
      st.points.lookup s = some (.consumeOpk kr target spk) := by
    unfold goto at h
    rw [UnorderedMap.lookup_insert_ite] at h
    split_ifs at h
    · exact absurd (Option.some.inj h) hp
    · exact h
  unfold step at h
  cases act with
  | authResponse t auth =>
    left
    dsimp only at h
    split at h
    · exact hgoto (by simp) h
    · exact h
  | keyUpload t ku =>
    left
    dsimp only at h
    split at h
    · exact h
    · split at h
      · exact hgoto (by simp) h
      · exact h
  | keyRequest t kr' =>
    left
    dsimp only at h
    split at h
    · exact hgoto (by simp) h
    · exact h
  | next t =>
    dsimp only [next] at h
    cases hpoint : st.points.lookup t with
    | none =>
      rw [hpoint] at h
      exact Or.inl h
    | some p =>
      rw [hpoint] at h
      rcases @points_nextFrom crypto d st t p with e | ⟨q, e, hq⟩
      · dsimp only at h
        rw [e, UnorderedMap.lookup_erase_ite] at h
        split_ifs at h
        exact Or.inl h
      · dsimp only at h
        rw [e, UnorderedMap.lookup_insert_ite] at h
        split_ifs at h with hst
        · obtain ⟨rfl, hspk⟩ := hq kr target spk (Option.some.inj h)
          rw [hst]
          exact Or.inr ⟨rfl, hpoint, hspk⟩
        · exact Or.inl h
  | restart => cases h

/-! ## Runs -/

/-- The condition on a step: see `KeyLedger.InForce`. -/
def InForce (st : KeyStrands) (m : KeyMove) : Prop :=
  match m.act with
  | .next s => ∀ p ∈ st.points.lookup s, st.ledger.InForce p
  | _ => True

instance (st : KeyStrands) (m : KeyMove) : Decidable (st.InForce m) :=
  match m with
  | ⟨_, .next s⟩ => inferInstanceAs (Decidable (∀ p ∈ st.points.lookup s, st.ledger.InForce p))
  | ⟨_, .authResponse _ _⟩ => .isTrue trivial
  | ⟨_, .keyUpload _ _⟩ => .isTrue trivial
  | ⟨_, .keyRequest _ _⟩ => .isTrue trivial
  | ⟨_, .restart⟩ => .isTrue trivial

/-- The ledger is in order, and so is what a `KEY_REQUEST` has read of it. -/
structure Keyed (st : KeyStrands) : Prop where
  ledger : st.ledger.Keyed
  read : ∀ s kr target k, st.points.lookup s = some (.consumeOpk kr target (some k)) →
    (⟨kr.userId, target.identityPub⟩, k) ∈ st.ledger.spks

theorem keyed_start : start.Keyed where
  ledger := KeyLedger.keyed_empty
  read s kr target k h := by cases h

theorem keyed_step (h : st.Keyed) {m : KeyMove} (hforce : st.InForce m) :
    (st.step crypto m).Keyed := by
  have hledger : (st.step crypto m).ledger.Keyed ∧
      st.ledger.spks ⊆ (st.step crypto m).ledger.spks := by
    rcases @ledger_step crypto st m with e | ⟨s, p, hact, hpoint, hwrites⟩
    · rw [e]
      exact ⟨h.ledger, List.Subset.refl _⟩
    · refine ⟨?_, KeyLedger.spks_writes hwrites⟩
      unfold InForce at hforce
      rw [hact] at hforce
      refine KeyLedger.keyed_writes h.ledger (hforce p hpoint) (fun kr target k e => ?_) hwrites
      exact h.read s kr target k (e ▸ hpoint)
  refine ⟨hledger.1, fun s kr target k hread => hledger.2 ?_⟩
  rcases reads_step hread with hread | ⟨hact, hpoint, hk⟩
  · exact h.read s kr target k hread
  · -- the signed pre-key was just read, under the identity key that `find_by_id` returned
    unfold InForce at hforce
    rw [hact] at hforce
    have hholds : st.ledger.Holds ⟨kr.userId, target.identityPub⟩ :=
      hforce _ hpoint _ (by rw [KeyLedger.about, ← hk]; rfl)
    obtain ⟨row, hrow, rfl⟩ := Option.map_eq_some_iff.1 hk.symm
    obtain ⟨key, hkey, hstored⟩ := h.ledger.spk kr.userId row hrow
    have hsame : key = target.identityPub := Option.some.inj (hkey.symm.trans hholds)
    rw [← hsame]
    exact hstored

/-- In a run in which every operation on pre-keys finds the identity key that it is about in the
users table, all bundles are coherent. -/
theorem key_bundles_coherent (crypto : Crypto) (ms : List KeyMove)
    (hms : AllSteps (step crypto) InForce start ms) :
    AllStates (step crypto) (fun st => st.ledger.Coherent) start ms := by
  have hkeyed : AllStates (step crypto) Keyed start ms :=
    AllStates.of_steps keyed_start (fun st m h hforce => keyed_step h hforce) hms
  exact hkeyed.mono fun st h => h.ledger.coherent

/-! ## Bundles that are not coherent -/

/-- What `crypto_pwhash_str` returned for the password of `alice`. -/
def alicePwhash : PwHash := ⟨List.replicate 128 7, List.length_replicate⟩

/-- The password of `alice` is `secret`. -/
def aliceCrypto : Crypto where
  signVerifyDetached _ _ _ := true
  pwhashStrVerify hash password := hash == alicePwhash.1 && password == str "secret"

def KeyAct.atZero (act : KeyAct) : KeyMove :=
  ⟨{ (Event.acceptError.atZero).draws with pwhash := some alicePwhash }, act⟩

/-- A key of 32 bytes. -/
def keyOf (b : UInt8) : Bytes := List.replicate 32 b

/-- `alice` presents the identity key `k` with the signed pre-key `k + 1`. -/
def aliceAuth (k : UInt8) : AuthResponse :=
  ⟨str "alice", keyOf k, List.replicate 64 0, keyOf (k + 1), List.replicate 64 k, str "secret"⟩

def bobAuth : AuthResponse := ⟨str "bob", keyOf 9, List.replicate 64 0, [], [], []⟩

/-- `alice` and `bob` register. -/
def aliceBobRegister : List KeyAct :=
  .authResponse 0 (aliceAuth 1) :: List.replicate 4 (.next 0) ++
    .authResponse 1 bobAuth :: List.replicate 4 (.next 1)

/-- `alice` replaces her identity key by means of her password. -/
def aliceRecovers : List KeyAct := .authResponse 2 (aliceAuth 3) :: List.replicate 6 (.next 2)

/-- `find_by_id`. -/
def bobRequests : List KeyAct := [.keyRequest 1 ⟨str "alice"⟩, .next 1]

/-- `get_signed_prekey` and `consume_opk`. -/
def bobReads : List KeyAct := [.next 1, .next 1]

/-- A session uploads. -/
def uploads (s : SessionId) (ku : KeyUpload) : List KeyAct :=
  .keyUpload s ku :: List.replicate (ku.oneTimePrekeys.length + 2) (.next s)

/-- `bob` has read the old identity key of `alice` when she recovers. -/
def tornMoves : List KeyMove :=
  (aliceBobRegister ++ bobRequests ++ aliceRecovers ++ bobReads).map KeyAct.atZero

/-- The old session of `alice` uploads a signed pre-key after she has recovered. -/
def staleMoves : List KeyMove :=
  (aliceBobRegister ++ aliceRecovers ++ uploads 0 ⟨keyOf 5, List.replicate 64 1, []⟩ ++
    bobRequests ++ bobReads).map KeyAct.atZero

/-- Some bundle has a signed pre-key that no session with its identity key stored. -/
def mixed (l : KeyLedger) : Bool :=
  l.sent.any fun bundle => !bundle.signedPrekey.isEmpty &&
    !l.spks.contains (⟨bundle.recipientFor, bundle.identityPub⟩,
      ⟨bundle.signedPrekey, bundle.spkSignature⟩)

/-- In the first run the bundle has the old identity key with the new signed pre-key, in the second
the new identity key with a signed pre-key of the old one. -/
theorem not_coherent_torn_stale :
    ¬ (final (step aliceCrypto) start tornMoves).ledger.Coherent ∧
      ¬ (final (step aliceCrypto) start staleMoves).ledger.Coherent := by
  have hmixed {l : KeyLedger} (h : mixed l = true) : ¬ l.Coherent := by
    intro hcoherent
    obtain ⟨bundle, hbundle, hbad⟩ := List.any_eq_true.1 h
    simp only [Bool.and_eq_true, Bool.not_eq_true', List.isEmpty_eq_false_iff] at hbad
    have hstored := (hcoherent bundle hbundle).signedPrekey hbad.1
    rw [List.contains_iff_mem.2 hstored] at hbad
    cases hbad.2
  exact ⟨hmixed (by decide +kernel), hmixed (by decide +kernel)⟩

/-- `bob` requests the keys of `alice` before and after she recovers. -/
def cleanMoves : List KeyMove :=
  (aliceBobRegister ++ bobRequests ++ bobReads ++ aliceRecovers ++
    uploads 2 ⟨[], [], [keyOf 6]⟩ ++ bobRequests ++ bobReads).map KeyAct.atZero

/-- Both bundles are coherent, and the second has a one-time pre-key. -/
theorem key_bundles_coherent_cleanMoves :
    AllStates (step aliceCrypto) (fun st => st.ledger.Coherent) start cleanMoves ∧
      (final (step aliceCrypto) start cleanMoves).ledger.sent.map (·.oneTimePrekey) =
        [keyOf 6, []] :=
  ⟨key_bundles_coherent aliceCrypto cleanMoves (by decide +kernel), by decide +kernel⟩

end KeyStrands

end Ircord

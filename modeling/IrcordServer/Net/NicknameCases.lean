import Mathlib.Data.Set.Function
import IrcordServer.Net.Registration
import IrcordServer.Net.Teardown

/-!
# Nicknames up to case

Nicknames are compared without regard to case among the users who are online.  The table of users
compares bytes, so a name that is free online may belong to somebody under another capitalisation.
-/

open Container Run

namespace Ircord

theorem nicknamesEqual_iff {a b : Str} :
    nicknamesEqual a b = true ↔ normalizeNickname a = normalizeNickname b := by
  unfold nicknamesEqual normalizeNickname lowercase
  induction a generalizing b with
  | nil =>
    cases b with
    | nil => exact iff_of_true rfl rfl
    | cons y b => exact iff_of_false Bool.false_ne_true (List.cons_ne_nil _ _).symm
  | cons x a ih =>
    cases b with
    | nil => exact iff_of_false Bool.false_ne_true (List.cons_ne_nil _ _)
    | cons y b =>
      rw [List.map_cons, List.map_cons, List.cons.injEq, ← ih]
      simp only [List.length_cons, List.zip_cons_cons, List.all_cons, Bool.and_eq_true, beq_iff_eq,
        Nat.add_right_cancel_iff]
      exact and_left_comm

namespace Server

section Definitions

variable (codec : Codec) (crypto : Crypto) (db : Database) (sv : Server) (i : Input)

/-- No two users of the table are equal but for case. -/
def NamesApart : Prop :=
  ∀ u ∈ db.users, ∀ v ∈ db.users, nicknamesEqual u v = true → u = v

/-- In every `AUTH_RESPONSE` that passes the checks of `handle_auth_response` and names a user
without a row, the name belongs to nobody under another capitalisation. -/
def PresentsApart : Prop :=
  ∀ (s : SessionId) (c : SessionCore) (auth : AuthResponse), sv.core s = some c →
    receivedAuth codec s sv i = some auth → Presents crypto sv c.authNonce auth →
    UserStore.findById sv.db auth.userId = none →
    ∀ u ∈ sv.db.users, nicknamesEqual u auth.userId = false

end Definitions

section Proofs

variable {codec : Codec} {crypto : Crypto} {db db' : Database} {sv : Server} {i : Input}
  {auth : AuthResponse}

theorem namesApart_iff : NamesApart db ↔ Set.InjOn normalizeNickname {u | u ∈ db.users} := by
  constructor
  · intro h u hu v hv he
    exact h u hu v hv (nicknamesEqual_iff.2 he)
  · intro h u hu v hv he
    exact h hu hv (nicknamesEqual_iff.1 he)

/-- The users after a login. -/
theorem users_of_verified (h : Verified crypto auth db db') :
    {u | u ∈ db'.users} = insert auth.userId {u | u ∈ db.users} := by
  ext u
  constructor
  · exact fun hu => (h.mem_cases hu).symm
  · rintro (rfl | hu)
    · exact UserStore.mem_users_of_identityKey h.key
    · exact h.mem hu

/-- The user that presents itself without a row is new. -/
theorem new_of_presents {s : SessionId} {c : SessionCore} (hc : sv.core s = some c)
    (received : receivedAuth codec s sv i = some auth)
    (presents : Presents crypto sv c.authNonce auth)
    (hnew : UserStore.findById sv.db auth.userId = none) :
    auth.userId ∉ sv.db.users ∧ auth.userId ∈ (sv.step codec crypto i).db.users := by
  obtain ⟨x, found, rfl⟩ := core_eq_some.1 hc
  exact ⟨AList.lookup_eq_none.1 (UserStore.findById_eq_none.1 hnew),
    inserted_of_presents found received presents hnew⟩

theorem namesApart_step_iff (codec : Codec) (crypto : Crypto) (i : Input)
    (h : NamesApart sv.db) :
    NamesApart (sv.step codec crypto i).db ↔ PresentsApart codec crypto sv i := by
  rcases keys_step codec crypto sv i with hkept | ⟨s, x, auth, found, received, presents, hauth⟩
  · refine iff_of_true (fun u hu v hv => h u (hkept.mem_of_mem hu) v (hkept.mem_of_mem hv)) ?_
    intro s c auth hc received presents hnew
    obtain ⟨hnot, hmem⟩ := new_of_presents hc received presents hnew
    exact absurd (hkept.mem_of_mem hmem) hnot
  · have hset := users_of_verified hauth.verified
    rw [namesApart_iff, hset]
    by_cases hold : auth.userId ∈ {u | u ∈ sv.db.users}
    · rw [Set.insert_eq_of_mem hold]
      refine iff_of_true (namesApart_iff.1 h) fun s c auth' hc received' presents' hnew => ?_
      obtain ⟨hnot, hmem⟩ := new_of_presents hc received' presents' hnew
      refine absurd ?_ hnot
      rcases hauth.verified.mem_cases hmem with hmem | heq
      · exact hmem
      · exact heq ▸ hold
    · rw [Set.injOn_insert hold]
      constructor
      · rintro ⟨-, hfree⟩ s c auth' hc received' presents' hnew u hu
        obtain ⟨hnot, hmem⟩ := new_of_presents hc received' presents' hnew
        rw [(hauth.verified.mem_cases hmem).resolve_left hnot]
        exact Bool.eq_false_iff.2 fun he => hfree ⟨u, hu, nicknamesEqual_iff.1 he⟩
      · intro happart
        refine ⟨namesApart_iff.1 h, ?_⟩
        rintro ⟨u, hu, he⟩
        have hfalse := happart s x.core auth (core_of_sessions found) received presents
          (UserStore.findById_eq_none.2 (AList.lookup_eq_none.2 hold)) u hu
        rw [nicknamesEqual_iff.2 he] at hfalse
        cases hfalse

/-- The users of the table differ by more than case throughout a run exactly if they do so at the
start, and every new user differs so from those who have a row. -/
theorem names_apart_iff (codec : Codec) (crypto : Crypto) (config : Config) (db : Database)
    (is : List Input) :
    AllStates (step codec crypto) (fun sv => NamesApart sv.db) (start config db) is ↔
      NamesApart db ∧
        AllSteps (step codec crypto) (PresentsApart codec crypto) (start config db) is := by
  have hrun (h : NamesApart db) := @allStates_iff_allSteps _ _ (step codec crypto)
    (fun sv => NamesApart sv.db) (PresentsApart codec crypto) (start config db) is h
    fun _ i h => namesApart_step_iff codec crypto i h
  constructor
  · intro hall
    exact ⟨hall.head, (hrun hall.head).1 hall⟩
  · rintro ⟨h, hall⟩
    exact (hrun h).2 hall

end Proofs

/-! ## A name under another capitalisation -/

/-- The signature of `Alice` for a challenge of zeros. -/
def capitalSignature : Bytes :=
  [107, 73, 238, 155, 146, 224, 192, 151, 233, 110, 170, 204, 164, 61, 190, 226, 143, 171, 116, 161,
    73, 138, 211, 55, 231, 155, 203, 244, 215, 240, 109, 222, 82, 184, 210, 19, 199, 206, 138, 63,
    236, 174, 213, 143, 170, 127, 248, 89, 207, 174, 108, 64, 239, 182, 22, 13, 45, 82, 167, 129,
    213, 39, 157, 5]

/-- The verdicts of libsodium when `alice` and `Alice` signed a challenge of zeros. -/
def capitalCrypto : Crypto :=
  .ofSignatures [(aliceSignature, List.replicate 32 0 ++ str "alice", zeroSeedKey),
    (capitalSignature, List.replicate 32 0 ++ str "Alice", zeroSeedKey)]

/-- `alice` registers and is gone; then `Alice` registers. -/
def capitalRun : List Input :=
  (loginEvents 0 (str "alice") aliceSignature ++ [Event.headerRead 0 none] ++
    loginEvents 1 (str "Alice") capitalSignature).map Event.atZero

theorem not_namesApart_capitalRun :
    ¬ AllStates (step .proto3 capitalCrypto) (fun sv => NamesApart sv.db)
      (start ⟨10, 10, 10, []⟩ .empty) capitalRun := by
  intro hall
  have halice : str "alice" ∈ (final (step .proto3 capitalCrypto) (start ⟨10, 10, 10, []⟩ .empty)
      capitalRun).db.users := by decide +kernel
  have hcapital : str "Alice" ∈ (final (step .proto3 capitalCrypto) (start ⟨10, 10, 10, []⟩ .empty)
      capitalRun).db.users := by decide +kernel
  have hequal : nicknamesEqual (str "alice") (str "Alice") = true := by decide
  have hapart : NamesApart (final (step .proto3 capitalCrypto) (start ⟨10, 10, 10, []⟩ .empty)
      capitalRun).db := hall.final
  exact absurd (hapart _ halice _ hcapital hequal) (by decide)

end Server

end Ircord

import IrcordServer.Commands.Dispatch
import IrcordServer.Net.Registration

/-!
# The reset of the tables

`/resetdb` deletes the users before the pre-keys that refer to them.  The foreign keys let the first
statement fail as long as there is a pre-key, and then none of the other statements runs.
-/

open Container Run

namespace Ircord

namespace Database

/-- The four tables that `/resetdb` empties. -/
structure Cleared (db : Database) : Prop where
  users : db.users = ∅
  signedPrekeys : db.signedPrekeys = ∅
  oneTimePrekeys : db.oneTimePrekeys.rows = []
  offlineMessages : db.offlineMessages.rows = []

/-- No row refers to a user. -/
def NoPrekeys (db : Database) : Prop := db.signedPrekeys = ∅ ∧ db.oneTimePrekeys.rows = []

variable {db db' : Database}

instance (db : Database) : Decidable db.NoPrekeys :=
  decidable_of_iff (db.signedPrekeys.keys = [] ∧ db.oneTimePrekeys.rows = []) <|
    and_congr_left' ⟨fun h => AList.ext (List.map_eq_nil_iff.1 h), fun h => by rw [h]; rfl⟩

theorem keys_eq_nil_iff {κ ν : Type} {m : UnorderedMap κ ν} : m.keys = [] ↔ m = ∅ := by
  constructor
  · intro h
    exact AList.ext (List.map_eq_nil_iff.1 h)
  · intro h
    rw [h]
    rfl

theorem deleteAllUsers_eq_ok_iff : (∃ db', db.deleteAllUsers = .ok db') ↔ db.NoPrekeys := by
  unfold deleteAllUsers NoPrekeys
  rw [← keys_eq_nil_iff]
  split_ifs with h
  · exact iff_of_true ⟨_, rfl⟩ h
  · refine iff_of_false ?_ h
    rintro ⟨_, e⟩
    cases e

theorem users_of_deleteAllUsers (h : db.deleteAllUsers = .ok db') : db'.users = ∅ := by
  unfold deleteAllUsers at h
  split_ifs at h
  cases h
  rfl

end Database

namespace CommandHandler

variable {h : CommandHandler} {db : Database} {caller : Caller} {i : CommandInput}

/-- The statements behind `DELETE FROM users` cannot fail. -/
theorem cleared_of_deleteAllUsers {db' : Database} (hdelete : db.deleteAllUsers = .ok db')
    (hadmin : caller.userId = adminUser) :
    (cmdResetdb h db caller).response.success = true ∧ (cmdResetdb h db caller).db.Cleared := by
  unfold cmdResetdb
  rw [if_neg (not_not_intro hadmin), hdelete]
  have husers : db'.users = ∅ := Database.users_of_deleteAllUsers hdelete
  refine ⟨rfl, ?_⟩
  exact
    { users := husers
      signedPrekeys := AList.ext (List.filter_eq_nil_iff.2 (by simp))
      oneTimePrekeys := List.filter_eq_nil_iff.2 (by simp)
      offlineMessages := List.filter_eq_nil_iff.2 (by simp) }

/-- A reset that fails at its first statement has changed nothing. -/
theorem cmdResetdb_of_error {e : SqlError} (hdelete : db.deleteAllUsers = .error e)
    (hadmin : caller.userId = adminUser) :
    cmdResetdb h db caller =
      .refuse h db (str "Database error: " ++ e.what) (str "resetdb") := by
  unfold cmdResetdb
  rw [if_neg (not_not_intro hadmin), hdelete]

/-- The admin's `/resetdb` succeeds and empties the four tables if there are no pre-keys, and
otherwise it fails. -/
theorem resetdb_clears_iff (hkind : i.kind h = some .resetdb)
    (hadmin : i.caller.userId = adminUser) :
    (i.outcome h).response.success = true ∧ (i.outcome h).db.Cleared ↔ i.db.NoPrekeys := by
  obtain ⟨limits, records, e, -⟩ := CommandInput.outcome_of_kind_eq_some hkind
  rw [e, ← Database.deleteAllUsers_eq_ok_iff]
  unfold call
  cases hdelete : i.db.deleteAllUsers with
  | ok db => exact iff_of_true (cleared_of_deleteAllUsers hdelete hadmin) ⟨db, rfl⟩
  | error error =>
    rw [cmdResetdb_of_error hdelete hadmin]
    exact iff_of_false (fun hclears => Bool.false_ne_true hclears.1) fun ⟨_, hok⟩ => by cases hok

/-- Two users, and a message that waits for one of them. -/
def mailDb : Database :=
  let users := ((∅ : UnorderedMap Str UserRow).insert adminUser ⟨[1], none, 0⟩).insert
    (str "alice") ⟨[2], none, 0⟩
  (OfflineStore.save (Database.empty.withUsers users fun _ h => absurd h (AList.notMem_empty _))
    (str "alice") [7] 0).2

def resetOfMail : CommandInput := { CommandInput.typed "admin" "resetdb" [] with db := mailDb }

theorem resetdb_clears_iff_resetOfMail :
    resetOfMail.db.users.keys.length = 2 ∧ resetOfMail.db.offlineMessages.rows.length = 1 ∧
      ((resetOfMail.outcome empty).response.success = true ∧
          (resetOfMail.outcome empty).db.Cleared ↔
        resetOfMail.db.NoPrekeys) :=
  ⟨by decide +kernel, by decide +kernel, resetdb_clears_iff (by decide) rfl⟩

end CommandHandler

namespace Server

/-- `admin` logs in, uploads a signed and a one-time pre-key, and asks for a reset. -/
def resetWithKeysRun : List Input :=
  (loginEvents 0 (str "admin") adminSignature ++
    frameEvents 0 .keyUpload (Codec.proto3.keyUpload.serialize ⟨[1], [2], [[3]]⟩) ++
    frameEvents 0 .command (Codec.proto3.ircCommand.serialize ⟨str "resetdb", []⟩)).map Event.atZero

/-- The reset answers with an error, and all rows are still there. -/
theorem not_cleared_resetWithKeysRun :
    (final (step .proto3 (loginCrypto (str "admin") adminSignature)) (start ⟨10, 10, 10, []⟩ .empty)
        resetWithKeysRun).written.getLast? =
      some (0, responseEnvelope .proto3
        ⟨false, str "Database error: FOREIGN KEY constraint failed", str "resetdb"⟩) ∧
    ¬ (final (step .proto3 (loginCrypto (str "admin") adminSignature))
        (start ⟨10, 10, 10, []⟩ .empty) resetWithKeysRun).db.Cleared := by
  have hrow : CommandHandler.adminUser ∈ (final
      (step .proto3 (loginCrypto (str "admin") adminSignature)) (start ⟨10, 10, 10, []⟩ .empty)
      resetWithKeysRun).db.users := by decide +kernel
  refine ⟨by decide +kernel, fun hcleared => ?_⟩
  rw [hcleared.users] at hrow
  exact AList.notMem_empty _ hrow

end Server

end Ircord

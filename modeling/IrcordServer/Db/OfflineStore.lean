import IrcordServer.Db.Database

/-!
# The offline store

`db/offline_store.cpp`.  Times are Unix times in seconds.
-/

open Sql

namespace Ircord

namespace OfflineStore

/-- Seven days. -/
def ttlSeconds : ℤ := 7 * 24 * 3600

def maxMessagesPerUser : ℕ := 100

def maxTotalMessages : ℕ := 100000

variable (db : Database)

/-- `DELETE FROM offline_messages`, the rows that satisfy `p`. -/
def deleteMessages (p : ℕ × OfflineMessageRow → Bool) : Database :=
  { db with offlineMessages := db.offlineMessages.retain fun r => !p r }

/-- The oldest message has the smallest id. -/
def deleteOldest : Database :=
  match db.offlineMessages.rows with
  | [] => db
  | oldest :: _ => deleteMessages db fun r => r.1 == oldest.1

/-- `save`: whether the payload was stored, and the tables afterwards. -/
def save (recipientId : Str) (payload : Bytes) (nowUnix : ℤ) : Bool × Database :=
  let userCount := db.offlineMessages.rows.countP fun r => r.2.recipientId == recipientId
  if userCount ≥ maxMessagesPerUser then (false, db)
  else
    let totalCount := db.offlineMessages.rows.length
    let db := if totalCount ≥ maxTotalMessages then deleteOldest db else db
    match bindBlob payload with
    | none => (false, db)
    | some blob =>
      (true, { db with
        offlineMessages :=
          db.offlineMessages.insert ⟨recipientId, blob, nowUnix, nowUnix + ttlSeconds⟩ })

/-- `fetch_and_delete`: the unexpired payloads for the recipient, oldest first; all of its rows
are deleted. -/
def fetchAndDelete (recipientId : Str) (nowUnix : ℤ) : List Bytes × Database :=
  let messages := db.offlineMessages.rows.filter fun r =>
    r.2.recipientId == recipientId && decide (r.2.expiresAt > nowUnix)
  (messages.map (·.2.payload), deleteMessages db fun r => r.2.recipientId == recipientId)

def cleanupExpired (nowUnix : ℤ) : Database :=
  deleteMessages db fun r => decide (r.2.expiresAt ≤ nowUnix)

@[simp] theorem users_deleteOldest : (deleteOldest db).users = db.users := by
  unfold deleteOldest
  split <;> rfl

@[simp] theorem users_save (recipientId : Str) (payload : Bytes) (nowUnix : ℤ) :
    (save db recipientId payload nowUnix).2.users = db.users := by
  unfold save
  dsimp only
  split_ifs
  · rfl
  · split
    · exact users_deleteOldest db
    · exact users_deleteOldest db
  · split <;> rfl

@[simp] theorem users_fetchAndDelete (recipientId : Str) (nowUnix : ℤ) :
    (fetchAndDelete db recipientId nowUnix).2.users = db.users := rfl

end OfflineStore

end Ircord

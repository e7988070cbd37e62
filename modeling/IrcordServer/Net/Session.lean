import IrcordServer.Container
import IrcordServer.Messages
import IrcordServer.RateLimiter

/-!
# The session record

`net/session.hpp`: the member variables of a `Session`, and what Boost.Asio still holds for it.  At
most one read is outstanding at a time, any number of writes and of posted `disconnect` calls, and
the ping timer waits at most once, while earlier waits may already have expired and be queued.
-/

open Container

namespace Ircord

inductive SessionState
  | handshake | hello | authPending | established | dead
  deriving DecidableEq

/-- The order in which a session goes through its states. -/
def SessionState.rank : SessionState → ℕ
  | handshake => 0 | hello => 1 | authPending => 2 | established => 3 | dead => 4

/-- The fields of `FileUploadState` that are read. -/
structure FileUploadState where
  fileSize : ℕ
  chunkSize : ℕ
  totalChunks : ℕ
  bytesReceived : ℕ
  deriving DecidableEq

/-- The outstanding `async_read`. -/
inductive ReadOp
  | header
  | payload (size : ℕ)
  deriving DecidableEq

/-- A wait of the ping timer: for the next ping, or for the answer to one. -/
inductive TimerWait
  | interval | timeout
  deriving DecidableEq

structure Session where
  state : SessionState
  userId : Str
  nextSeq : ℕ
  pingSent : Bool
  authNonce : Bytes
  msgRateLimiter : Option RateLimiter
  activeUploads : UnorderedMap Str FileUploadState
  handshaking : Bool
  reading : Option ReadOp
  writes : ℕ
  disconnects : ℕ
  timer : Option TimerWait
  expired : List TimerWait
  socketOpen : Bool

namespace Session

/-- `kMaxMessageSize`. -/
def maxMessageSize : ℕ := 65536

/-- `kProtocolVersion`. -/
def protocolVersion : UInt32 := 1

/-- A session right after its constructor and `start`. -/
def new : Session where
  state := .handshake
  userId := []
  nextSeq := 1
  pingSent := false
  authNonce := []
  msgRateLimiter := none
  activeUploads := ∅
  handshaking := true
  reading := none
  writes := 0
  disconnects := 0
  timer := none
  expired := []
  socketOpen := true

/-- Some outstanding operation holds a `shared_ptr` to the session.  The ping timer holds none. -/
def Outstanding (x : Session) : Prop :=
  x.handshaking = true ∨ x.reading ≠ none ∨ 0 < x.writes ∨ 0 < x.disconnects

instance (x : Session) : Decidable x.Outstanding :=
  inferInstanceAs (Decidable (_ ∨ _ ∨ _ ∨ _))

/-- `reset_ping_timer`: a wait that has not expired is cancelled. -/
def resetPingTimer (x : Session) : Session := { x with timer := some .interval }

/-- `start_ping_timer`. -/
def startPingTimer (x : Session) : Session := { x with pingSent := false }.resetPingTimer

end Session

end Ircord

import IrcordServer.Text
import Mathlib.Data.Int.Notation

/-!
# The fixed-window rate limiter

`net/rate_limiter.hpp`.  Times are readings of the steady clock in nanoseconds.
-/

namespace Ircord

/-- A reading of the steady clock, in nanoseconds. -/
abbrev Time := ℤ

def seconds (n : ℤ) : Time := n * 1000000000

def minutes (n : ℤ) : Time := seconds (60 * n)

structure RateLimiter where
  maxTokens : ℤ
  window : Time
  windowStart : Time
  count : ℤ
  deriving DecidableEq

namespace RateLimiter

/-- The constructor, run at time `now`. -/
def new (maxTokens : ℤ) (window now : Time) : RateLimiter := ⟨maxTokens, window, now, 0⟩

/-- `allow`: whether the request is within the rate, and the limiter afterwards. -/
def allow (l : RateLimiter) (now : Time) : Bool × RateLimiter :=
  let l := if now - l.windowStart ≥ l.window then { l with windowStart := now, count := 0 } else l
  if l.count ≥ l.maxTokens then (false, l) else (true, { l with count := l.count + 1 })

end RateLimiter

end Ircord

import VoxTree.ControlPlane

/-!
# The rate limiter

`InMemoryTransmissionRateLimiter`: for each player one queue of accepted starts and one of accepted
ends. Times and durations are counted in 64-bit nanoseconds, and what leaves them wraps.
-/

namespace VoxTree

/-- `TransmissionRateLimit`, with what its constructor checks. -/
structure TransmissionRateLimit where
  maximumRequests : ℕ
  window : Milliseconds
  maximumRequests_pos : maximumRequests ≠ 0
  window_pos : ¬window ≤ 0

def TransmissionRateLimit.make (maximumRequestCount : ℕ) (timeWindow : Milliseconds) :
    Except InvalidArgument TransmissionRateLimit :=
  if h : maximumRequestCount = 0 ∨ timeWindow ≤ 0 then
    .error ⟨"A transmission rate limit requires a positive request count and time window."⟩
  else .ok ⟨maximumRequestCount, timeWindow, fun h₀ => h (.inl h₀), fun h₀ => h (.inr h₀)⟩

/-- What a 64-bit integer keeps of a result. -/
def wrapInt64 (n : Int) : Int := n.bmod 18446744073709551616

/-- `now - window`, which converts the window to nanoseconds first. -/
def oldestAllowed (window : Milliseconds) (now : TimePoint) : TimePoint :=
  wrapInt64 (now - wrapInt64 window.toNanoseconds)

/-- The loop pops the front while it has left the window. -/
def discardExpiredRequests : List TimePoint → TimePoint → Milliseconds → List TimePoint
  | [], _, _ => []
  | front :: requests, now, window =>
    if front ≤ oldestAllowed window now then discardExpiredRequests requests now window
    else front :: requests

structure RequestHistory where
  starts : List TimePoint := []
  ends : List TimePoint := []

namespace RequestHistory

def requests (history : RequestHistory) : TransmissionRateLimitAction → List TimePoint
  | .start => history.starts
  | .end => history.ends

def set (history : RequestHistory) (requests : List TimePoint) :
    TransmissionRateLimitAction → RequestHistory
  | .start => { history with starts := requests }
  | .end => { history with ends := requests }

end RequestHistory

structure InMemoryTransmissionRateLimiter where
  startLimit : TransmissionRateLimit
  endLimit : TransmissionRateLimit
  histories : Std.ExtTreeMap PlayerId RequestHistory := ∅

namespace InMemoryTransmissionRateLimiter

variable (limiter : InMemoryTransmissionRateLimiter)

def limit : TransmissionRateLimitAction → TransmissionRateLimit
  | .start => limiter.startLimit
  | .end => limiter.endLimit

/-- `histories_[player_id]`, a new history where there was none. -/
def history (playerId : PlayerId) : RequestHistory := limiter.histories[playerId]?.getD {}

def allow (playerId : PlayerId) (action : TransmissionRateLimitAction) (now : TimePoint) :
    Bool × InMemoryTransmissionRateLimiter :=
  let history := limiter.history playerId
  let limit := limiter.limit action
  let requests := discardExpiredRequests (history.requests action) now limit.window
  if limit.maximumRequests ≤ requests.length then
    (false, { limiter with
      histories := limiter.histories.insert playerId (history.set requests action) })
  else
    (true, { limiter with
      histories := limiter.histories.insert playerId (history.set (requests ++ [now]) action) })

/-- A call of `allow`. -/
structure Request where
  playerId : PlayerId
  action : TransmissionRateLimitAction
  now : TimePoint

/-- The limiter after the calls. -/
def after (requests : List Request) : InMemoryTransmissionRateLimiter :=
  requests.foldl (fun l r => (l.allow r.playerId r.action r.now).2) limiter

/-- The calls in order, each with its answer. -/
def answers (limiter : InMemoryTransmissionRateLimiter) : List Request → List (Request × Bool)
  | [] => []
  | r :: later =>
    (r, (limiter.allow r.playerId r.action r.now).1)
      :: answers (limiter.allow r.playerId r.action r.now).2 later

/-- A limiter as it is constructed. -/
def start (startLimit endLimit : TransmissionRateLimit) : InMemoryTransmissionRateLimiter :=
  { startLimit, endLimit }

/-- The call is one of the player's for the action. -/
def Request.isOf (p : PlayerId) (a : TransmissionRateLimitAction) (r : Request) : Bool :=
  r.playerId = p && r.action = a

end InMemoryTransmissionRateLimiter

end VoxTree

import Mathlib.Data.Rat.Floor
import MapServiceAgent.Native.Python

/-!
# The call limiter

`_LUA_ACQUIRE` over the two keys it touches, and `acquire`: the arguments it
calls it with, and its loop. The store keeps a lapsed counter with the moment it
lapsed; reading it gives nothing from that moment on. Token arithmetic is exact.
-/

namespace MapServiceAgent.Native

/-! ### Clocks -/

/-- Microseconds of a second. -/
def secondMicros : Nat := 1000000

/-- Microseconds of a day. -/
def dayMicros : Nat := 86400 * secondMicros

/-- The calendar date of a moment, moments counted in microseconds of KST. -/
def dateOf (t : Nat) : Nat := t / dayMicros

/-- `_seconds_until_kst_midnight`. -/
def secondsUntilMidnight (t : Nat) : Nat := max 1 ((dayMicros - t % dayMicros) / secondMicros)

/-! ### The store -/

/-- A counter key with the moment it lapses. -/
structure Counter where
  count : Int
  expireAt : Option Nat := none
deriving DecidableEq, Repr

/-- The hash of the bucket: its tokens, and when they were counted. -/
structure Bucket where
  tokens : ℚ
  ts : Int
deriving DecidableEq, Repr

/-- The two kinds of keys: a counter for each date, and the bucket. -/
structure Store where
  daily : Nat → Option Counter := fun _ => none
  bucket : Option Bucket := none

/-- A key vanishes exactly when it lapses. -/
def Counter.live (c : Counter) (t : Nat) : Bool := c.expireAt.all (t < ·)

/-- `GET` of a daily counter at time `t`. -/
def Store.get (st : Store) (t date : Nat) : Option Counter := (st.daily date).filter (·.live t)

/-- `tonumber(redis.call('GET', daily_key) or '0')`. -/
def Store.count (st : Store) (t date : Nat) : Int := (st.get t date).elim 0 (·.count)

/-- The counter of one date is written. -/
def Store.setCounter (st : Store) (date : Nat) (c : Counter) : Store :=
  { st with daily := fun d => if d = date then some c else st.daily d }

/-! ### The script -/

/-- The arguments of the script that do not change from call to call. -/
structure Limits where
  capacity : Int
  refillPerMin : Int
  dailyCap : Int
deriving DecidableEq, Repr

/-- One `EVAL`: when Redis runs it, and its arguments. -/
structure Call where
  time : Nat
  date : Nat
  nowMs : Int
  dailyTtl : Nat
deriving DecidableEq, Repr

/-- `{status, wait_ms}`. -/
inductive Reply where
  | ok
  | wait (ms : Int)
  | rpd
deriving DecidableEq, Repr

/-- The balance of the bucket at `nowMs`, refilled and clamped. -/
def available (lim : Limits) (bucket : Option Bucket) (nowMs : Int) : ℚ :=
  match bucket with
  | none => lim.capacity
  | some b =>
    -- a clock that goes back refills nothing
    let elapsed := max 0 (nowMs - b.ts)
    min (b.tokens + elapsed * lim.refillPerMin / 60000) lim.capacity

/-- `INCR`, and `EXPIRE` when that made it 1. -/
def Store.incr (st : Store) (c : Call) : Store :=
  let old := (st.get c.time c.date).getD { count := 0 }
  -- a counter that is there keeps the moment it lapses
  let expireAt :=
    if old.count + 1 = 1 then some (c.time + c.dailyTtl * secondMicros) else old.expireAt
  st.setCounter c.date { count := old.count + 1, expireAt := expireAt }

/-- `_LUA_ACQUIRE`. -/
def acquireScript (lim : Limits) (st : Store) (c : Call) : Reply × Store :=
  -- the daily cap comes first and touches neither key
  if lim.dailyCap ≤ st.count c.time c.date then (.rpd, st)
  else
    let tokens := available lim st.bucket c.nowMs
    if tokens < 1 then
      -- no counter is raised for a request that has to wait
      (.wait ⌈(1 - tokens) * 60000 / lim.refillPerMin⌉,
        { st with bucket := some ⟨tokens, c.nowMs⟩ })
    else (.ok, { st with bucket := some ⟨tokens - 1, c.nowMs⟩ }.incr c)

/-- The call `acquire` makes when its clock reads `clock` and Redis runs the
    script at `time`. -/
def callAt (clock time : Nat) : Call where
  time := time
  date := dateOf clock
  -- `int(time.time() * 1000)`
  nowMs := clock / 1000
  dailyTtl := secondsUntilMidnight clock

/-- The replies of a run of calls, and the store after it. -/
def acquireRun (lim : Limits) (st : Store) : List Call → List Reply × Store
  | [] => ([], st)
  | c :: cs =>
    let (r, st) := acquireScript lim st c
    let (rs, st) := acquireRun lim st cs
    (r :: rs, st)

/-! ### acquire -/

/-- What the script returns to `acquire`: `result[0]` and `result[1]`. -/
structure ScriptResult where
  status : String
  waitMs : ℚ
deriving DecidableEq, Repr

/-- The table of a reply. -/
def Reply.result : Reply → ScriptResult
  | .ok => ⟨"ok", 0⟩
  | .wait ms => ⟨"wait", ms⟩
  | .rpd => ⟨"rpd", 0⟩

/-- `max(0.05, float(result[1]) / 1000.0)`. -/
def waitSeconds (result : ScriptResult) : ℚ := max (1 / 20) (result.waitMs / 1000)

/-- What one `acquire` did: how often it ran the script, how long it slept each
    time, and how it ended. -/
structure AcquireRun where
  executions : Nat
  sleeps : List ℚ
  outcome : Except PyExn Unit

/-- The loop of `acquire` from its `i`-th execution of the script on, which
    returns `results i`, with `waited` seconds behind it. It has no bound of its
    own; `none` says that `fuel` rounds were not enough. -/
def acquireLoop (maxWait : ℚ) (results : Nat → ScriptResult) :
    (fuel i : Nat) → (waited : ℚ) → Option AcquireRun
  | 0, _, _ => none
  | fuel + 1, i, waited =>
    if (results i).status = "ok" then some ⟨i + 1, [], .ok ()⟩
    else if (results i).status = "rpd" then
      some ⟨i + 1, [], .error (.geminiQuota "gemini_rpd_exceeded")⟩
    else
      let seconds := waitSeconds (results i)
      -- the wait that would be too long is not begun
      if maxWait < waited + seconds then
        some ⟨i + 1, [], .error (.geminiQuota "gemini_rpm_exceeded")⟩
      else
        (acquireLoop maxWait results fuel (i + 1) (waited + seconds)).map fun run =>
          { run with sleeps := seconds :: run.sleeps }

/-- The whole of `acquire`, from the first attempt with nothing waited. -/
def acquire (maxWait : ℚ) (results : Nat → ScriptResult) (fuel : Nat) : Option AcquireRun :=
  acquireLoop maxWait results fuel 0 0

end MapServiceAgent.Native

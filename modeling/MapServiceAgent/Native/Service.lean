import MapServiceAgent.ForStd.Pool
import MapServiceAgent.Native.JobEvents
import MapServiceAgent.Native.RecommendRequest

/-!
# The service

Requests for recommendations come in while jobs run: each one that passes the
gates becomes a task of its own, tracked until it has ended. The end of the
service waits for the tasks tracked by then, and after a grace cancels those
still running.
-/

namespace MapServiceAgent.Native

/-! ### Boot -/

/-- The settings the gates read. -/
structure ServiceSettings where
  geminiApiKey : String
  internalToken : Option String
  authEnforced : Bool
  wireKey : String

/-- The checks `lifespan` makes before it sets anything up. -/
def bootGate (settings : ServiceSettings) : Except PyExn Unit :=
  if settings.geminiApiKey = "" then .error (.runtimeError "RuntimeError")
  else if settings.authEnforced ∧ settings.internalToken.getD "" = "" then
    .error (.runtimeError "RuntimeError")
  else .ok ()

/-! ### Requests -/

/-- `_verify_internal_token`. Two texts are the same if their UTF-8 is. -/
def verifyInternalToken (settings : ServiceSettings) (provided : Option String) :
    Except Refusal Unit :=
  let expected := settings.internalToken.getD ""
  -- no token is set up: every caller is let in
  if expected = "" then .ok ()
  else if provided = some expected then .ok ()
  else .error (.http 401 "invalid internal token")

/-- A `POST /v1/recommend`, with what the world makes of it: the time and the
    cipher at the gate, the identifier drawn, and what the job will come upon. -/
structure RecommendCall where
  token : Option String
  request : RecommendRequest
  wire : Wire
  jobId : String
  env : Env
  waits : Waits

/-- What `recommend` hands to a job, if the gates let the request through. -/
def RecommendCall.gated (settings : ServiceSettings) (call : RecommendCall) :
    Except Refusal RecommendRequest := do
  verifyInternalToken settings call.token
  resolvePlaces { call.wire with wireKey := settings.wireKey } call.request

/-- The job of an admitted call. -/
def RecommendCall.job (call : RecommendCall) (req : RecommendRequest) :
    Co PyExn JobEvent Unit :=
  jobCo call.env (some publishStatus) call.waits call.jobId req.toAgentRequest

/-! ### The service -/

/-- Both streams, the tasks, and what `app.state` and the end of `lifespan` hold. -/
structure Service where
  /-- `hasattr(app.state, "graph")`. -/
  graphReady : Bool := false
  /-- `app.state.bg_tasks`. -/
  bgTasks : List String := []
  pool : Pool String PyExn JobEvent Unit := {}
  /-- `pending`, once the end has begun. -/
  pending : Option (List String) := none
  /-- `SHUTDOWN_GRACE_SECONDS` have passed since. -/
  graceOver : Bool := false

/-- Whether a task has come to its end. -/
def Service.done (s : Service) (jobId : String) : Bool :=
  ((s.pool.tasks jobId).bind Co.ended).isSome

/-- What may happen to the service next. -/
inductive ServiceEvent where
  | boot
  | recommend (call : RecommendCall)
  /-- The event loop decides the next await of a task. -/
  | drive (jobId : String) (d : Decision PyExn)
  /-- The callback of a task that is done. -/
  | discard (jobId : String)
  | shutdown
  | graceExceeded

/-- Whether an exception may be thrown into a task: it is cancelled only by the end
    of the service, when it is one of those waited for in vain. -/
def Service.mayThrow (s : Service) (jobId : String) : Decision PyExn → Bool
  -- nothing else in the service cancels a task
  | .strike _ .cancelled => s.graceOver && (s.pending.getD []).contains jobId
  | _ => true

/-- One event, if it can happen. An identifier is drawn once, and the server takes
    no request once the end has begun. -/
def Service.step (settings : ServiceSettings) (s : Service) : ServiceEvent → Option Service
  | .boot =>
    match bootGate settings with
    | .ok () => if s.graphReady then none else some { s with graphReady := true }
    | .error _ => none
  | .recommend call =>
    -- the server has stopped accepting
    if s.pending.isSome then none
    else
      match call.gated settings with
      -- a refused request leaves nothing behind
      | .error _ => some s
      | .ok req =>
        -- 503: graph not ready
        if !s.graphReady then some s
        else do
          let pool ← s.pool.step (.spawn call.jobId (call.job req))
          -- `create_task`, and the task into the set that keeps it alive
          return { s with pool := pool, bgTasks := s.bgTasks ++ [call.jobId] }
  | .drive jobId d =>
    if s.mayThrow jobId d then do
      let pool ← s.pool.step (.drive jobId d)
      return { s with pool := pool }
    else none
  | .discard jobId =>
    if s.done jobId then some { s with bgTasks := s.bgTasks.filter (· ≠ jobId) } else none
  -- what is waited for is decided here: the tasks of this moment
  | .shutdown =>
    if s.graphReady && s.pending.isNone then some { s with pending := some s.bgTasks } else none
  | .graceExceeded =>
    match s.pending with
    -- the wait ends by itself once all of them are done
    | some pending => if pending.all s.done then none else some { s with graceOver := true }
    | none => none

/-- The service after all events, if each of them can happen. -/
def Service.run (settings : ServiceSettings) : Service → List ServiceEvent → Option Service
  | s, [] => some s
  | s, e :: es => do (← s.step settings e).run settings es

/-- The decisions made on a job. -/
def jobDecisions (jobId : String) (es : List ServiceEvent) : List (Decision PyExn) :=
  es.filterMap fun
    | .drive i d => if i = jobId then some d else none
    | _ => none

end MapServiceAgent.Native

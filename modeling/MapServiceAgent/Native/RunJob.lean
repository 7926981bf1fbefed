import MapServiceAgent.ForStd.Coroutine
import MapServiceAgent.Native.AgentGraph

/-!
# Running a job

`_run_job` drives the graph under a timeout and publishes a failure for
whatever comes out of it as an exception. The coroutine version leaves open
what the nodes await before `publish_done` and where a timeout, a cancellation
or a failing checkpoint write strikes.
-/

namespace MapServiceAgent.Native

/-- The failure each `except` clause of `_run_job` publishes. The cancellation of
    the job's own timer arrives there as a timeout. -/
def jobFailure : PyExn → Failure
  | .timeoutError | .timerCancelled => failure "generation_timeout" true
  | .cancelled => failure "upstream_unavailable" true
  | e => exceptionFailure e

/-- `asyncio.wait_for`: the cancellation its own timer threw in comes out as a
    timeout. -/
def waitFor {μ α : Type} (m : Co PyExn μ α) : Co PyExn μ α :=
  m.tryCatch fun
    | .timerCancelled => .raise .timeoutError
    | e => .raise e

/-- `publish_done` and what is left of `ainvoke` after it: `writes` awaits that
    send nothing to the done stream, the last checkpoint among them. -/
def publishDoneCo (writes : Nat) (payload : JobDonePayload) : Co PyExn JobDonePayload Unit :=
  (Co.send payload).bind fun _ => (Co.awaits writes).lift

/-- `graph.ainvoke`, when `nodes` is what runs before `publish_done`. -/
def ainvokeCo (nodes : Co PyExn Empty JobDonePayload) (writes : Nat) :
    Co PyExn JobDonePayload Unit :=
  nodes.lift.bind (publishDoneCo writes)

/-- `_publish_failure` logs any exception of its own, but not a cancellation. -/
def publishFailure (jobId : String) (f : Failure) : Co PyExn JobDonePayload Unit :=
  (Co.send (failedPayload jobId f)).tryCatch fun e => if e.isException then .ret () else .raise e

/-- The `except` clauses of `_run_job`. -/
def onJobError (jobId : String) (e : PyExn) : Co PyExn JobDonePayload Unit :=
  (publishFailure jobId (jobFailure e)).bind fun _ =>
    if e.isException then .ret () else .raise e

/-- `_run_job`. -/
def runJobCo (jobId : String) (nodes : Co PyExn Empty JobDonePayload) (writes : Nat) :
    Co PyExn JobDonePayload Unit :=
  (waitFor (ainvokeCo nodes writes)).tryCatch (onJobError jobId)

/-- The messages of a job that nothing strikes from outside. -/
def runJob (env : Env) (jobId : String) (req : AgentRequest) : List JobDonePayload :=
  match ainvoke env jobId req with
  | (.ok (), j) => j.published
  | (.error e, j) => j.published ++ [failedPayload jobId (jobFailure e)]

end MapServiceAgent.Native

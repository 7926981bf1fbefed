import MapServiceAgent.ForStd.Announce
import MapServiceAgent.Native.RunJob

/-!
# The two streams of a job

Every node but the last announces itself on the status stream before it does
anything else; what comes of the job goes to the done stream. `jobCo` is
`_run_job` with both.
-/

namespace MapServiceAgent.Native

/-! ### _emit_stage -/

/-- The fields of a message on the status stream; the time of sending is left
    out. -/
structure StatusMessage where
  jobId : String
  stage : String
  status : String := "in_progress"
deriving DecidableEq, Repr

/-- The name a node is registered under, and announces itself by. -/
def AgentNode.stage : AgentNode → String
  | parseInput => "parse_input"
  | fetchWeather => "fetch_weather"
  | planStrategy => "plan_strategy"
  | loadGivenPlaces => "load_given_places"
  | searchPlaces => "search_places"
  | rulesFilter => "rules_filter"
  | scoreAndRank => "score_and_rank"
  | recommendPlaces => "recommend_places"
  | recommendRoute => "recommend_route"
  | buildTimeline => "build_timeline"
  | fitTimeBudget => "fit_time_budget"
  | llmReason => "llm_reason"
  | buildPayload => "build_payload"
  | publishDone => "publish_done"

/-- What the status publisher does with a message: any coroutine, so that it may
    fail in any way. -/
abbrev StatusPublisher := StatusMessage → Co PyExn StatusMessage Unit

/-- `StreamsPublisher.publish_status`: one `XADD`. -/
def publishStatus : StatusPublisher := Co.send

/-- `get_status_publisher`, and the publishing; `none` when no publisher is set. -/
def callPublisher (publisher : Option StatusPublisher) (m : StatusMessage) :
    Co PyExn StatusMessage Unit :=
  match publisher with
  | none => .raise (.runtimeError "RuntimeError")
  | some publish => publish m

/-- `_emit_stage`: any exception is swallowed, but not a cancellation. -/
def emitStage (publisher : Option StatusPublisher) (jobId : String) (n : AgentNode) :
    Co PyExn StatusMessage Unit :=
  (callPublisher publisher { jobId := jobId, stage := n.stage }).tryCatch fun e =>
    if e.isException then .ret () else .raise e

/-! ### The graph with its announcements -/

/-- What a job awaits on its way through the graph, beside the announcements:
    the calls of each node and the checkpoint written after it, and the
    checkpoints after the result. -/
structure Waits where
  node : AgentNode → Nat
  after : Nat

/-- What comes with each node. -/
def aroundNode (publisher : Option StatusPublisher) (waits : Waits) (jobId : String)
    (n : AgentNode) : Co PyExn StatusMessage Unit :=
  (emitStage publisher jobId n).bind fun _ => (Co.awaits (waits.node n)).lift

/-- How many nodes a graph runs before it raises. -/
def recursionLimit : Nat := 25

/-- The graph up to the payload of `publish_done`. -/
def stagesCo (env : Env) (publisher : Option StatusPublisher) (waits : Waits) (jobId : String)
    (req : AgentRequest) : Co PyExn StatusMessage JobDonePayload :=
  ((agentGraph env).driveCo (aroundNode publisher waits jobId) (· == .publishDone)
    (.other "GraphRecursionError") recursionLimit .parseInput (Job.start jobId req)).bind fun j =>
      match donePayload j.state with
      | .ok p => .ret p
      | .error e => .raise e

/-! ### The job -/

/-- An entry of either stream. -/
inductive JobEvent where
  | stage (m : StatusMessage)
  | result (p : JobDonePayload)

/-- The entries of the done stream. -/
def JobEvent.result? : JobEvent → Option JobDonePayload
  | stage _ => none
  | result p => some p

/-- The `job_id` of an entry. -/
def JobEvent.jobId : JobEvent → String
  | stage m => m.jobId
  | result p => p.jobId

/-- `_run_job`. -/
def jobCo (env : Env) (publisher : Option StatusPublisher) (waits : Waits) (jobId : String)
    (req : AgentRequest) : Co PyExn JobEvent Unit :=
  (waitFor (((stagesCo env publisher waits jobId req).mapMsg (some ∘ .stage)).bind fun p =>
    (publishDoneCo waits.after p).mapMsg (some ∘ .result))).tryCatch fun e =>
      (onJobError jobId e).mapMsg (some ∘ .result)

end MapServiceAgent.Native

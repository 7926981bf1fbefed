import MapServiceAgent.Native.Collect
import MapServiceAgent.Native.DoneStream
import MapServiceAgent.Native.EvalRun
import MapServiceAgent.Native.JsonText
import MapServiceAgent.Native.RunJob

/-!
# From a job to its score

What a job leaves on the done stream, what the collector writes into files, and
what the evaluation reads there.
-/

namespace MapServiceAgent.Native

/-! ### The message -/

/-- `_publish_failure`, where nothing goes wrong in it. -/
def failureMessage (stream : StreamEnv) (jobId : String) (f : Failure) :
    Except PyExn DoneMessage :=
  let payload := failedPayload jobId f
  publish stream jobId payload.status.value (stream.modelDumpJson payload) none

/-- What `_run_job` leaves on the done stream if nothing strikes it: the message of
    `publish_done` or, where that or a node before it raises, the one of the failure;
    nothing if that raises too. -/
def jobMessage (stream : StreamEnv) (env : Env) (jobId : String) (req : AgentRequest) :
    Except PyExn DoneMessage :=
  match ainvoke env jobId req with
  | (.error e, _) => failureMessage stream jobId (jobFailure e)
  | (.ok (), j) =>
    match doneMessage stream j.state with
    | .ok m => .ok m
    | .error e => failureMessage stream jobId (jobFailure e)

/-- The fields `publish` hands to `xadd`. -/
def DoneMessage.fields (m : DoneMessage) : StreamFields :=
  [("job_id", m.jobId), ("status", m.status), ("payload", m.payload)] ++
    (m.training.map fun t => ("training", t)).toList

/-! ### The files -/

/-- The files the collector writes of one field of the messages it has got. -/
def collectedFiles (key : String) (results : List (String × StreamFields)) :
    List (String × String) :=
  results.filterMap fun r =>
    ((r.2.lookup key).filter (· ≠ "")).map fun text => (r.1 ++ ".json", text)

/-- `load_json`, given what is in the file, if there is one. -/
def loadJson (pf : Platform) (depth : Nat) : Option String → Except PyExn Json
  | none => .ok .null
  | some text =>
    match jsonLoads pf depth text.toList with
    | .ok v => .ok v
    | .error (.valueError "JSONDecodeError") => .ok .null
    | .error e => .error e

end MapServiceAgent.Native

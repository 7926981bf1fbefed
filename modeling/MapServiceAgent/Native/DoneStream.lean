import MapServiceAgent.Native.AgentGraph
import MapServiceAgent.Native.LocationSeal
import MapServiceAgent.Native.Scorer

/-!
# The done stream

`publish_done` hands its payload and the training signal of the job to
`StreamsPublisher.publish`, which seals the payload when there is a wire key.
-/

namespace MapServiceAgent.Native

/-- What publishing reads beside the state. -/
structure StreamEnv where
  platform : Platform
  settings : Settings
  wire : Wire
  /-- `TRAINING_CAPTURE_ENABLED`. -/
  trainingCaptureEnabled : Bool
  /-- `GEMINI_MODEL`. -/
  geminiModel : String
  /-- `model_dump_json(by_alias=True)`. -/
  modelDumpJson : JobDonePayload → String
  /-- How `json.dumps` writes a number that is a key. -/
  numberKey : PyFloat → String

/-- `TRAINING_SCHEMA_VERSION`. -/
def trainingSchemaVersion : Int := 2

/-- `TRAINING_FIELD_MAX_BYTES`. -/
def trainingFieldMaxBytes : Nat := 256 * 1024

/-! ### The training signal -/

/-- An entry of `candidates` in the training signal. -/
def trainingCandidate (rank : Nat) (m : List (String × Json)) : Json :=
  .obj [("rank", .int rank), ("content_id", dictGet m "content_id"), ("name", dictGet m "name"),
    ("category", dictGet m "category"), ("category_group_code", dictGet m "category_group_code"),
    ("lat", dictGet m "lat"), ("lng", dictGet m "lng")]

/-- The candidates that are dictionaries, with their rank among all. -/
def trainingCandidates (rank : Nat) : List Json → List Json
  | [] => []
  | .obj m :: cs => trainingCandidate rank m :: trainingCandidates (rank + 1) cs
  | _ :: cs => trainingCandidates (rank + 1) cs

/-- How `json.dumps` writes a key of the scores. -/
def StreamEnv.keyText (env : StreamEnv) : PyKey → String
  | .null => "null"
  | .num x => env.numberKey x
  | .str s => s

/-- `sum(u.get(key) or 0 for u in usage)`. -/
def usageTotal (usage : List Json) (key : String) : Except PyExn Json := do
  let counts ← usage.mapM fun u => do return (← u.get key).orElse (.int 0)
  pySum counts

/-- The entries on what the model calls cost, if there were any. -/
def usageFields (usage : List Json) : Except PyExn (List (String × Json)) :=
  if usage = [] then .ok []
  else do
    let prompt ← usageTotal usage "prompt"
    let output ← usageTotal usage "output"
    let total ← usageTotal usage "total"
    return [("llm_usage", .arr usage), ("llm_tokens", .obj [("calls", .int usage.length),
      ("prompt", prompt), ("output", output), ("total", total)])]

/-- The entries of the training signal before the candidates. -/
def StreamEnv.signalHead (env : StreamEnv) (s : AgentState) (path : String) :
    List (String × Json) :=
  [("schema_version", .int trainingSchemaVersion), ("path", .str path),
    ("grounded", .bool (s.grounded.getD false)), ("model", .str env.geminiModel),
    ("candidate_count", .int (s.candidates.getD []).length)]

/-- The entries after them; `usage` is what the calls cost. -/
def StreamEnv.signalTail (env : StreamEnv) (s : AgentState) (usage : List (String × Json)) :
    List (String × Json) :=
  [("chosen_content_ids", .arr (((s.places.getD []).filterMap Place.sourceId).map .str)),
    ("request", safeRequestView s.request),
    ("ranking_config", .obj [("personalization_enabled", .bool env.settings.personalizationEnabled),
      ("rules_enabled", .bool env.settings.rulesEnabled)])] ++
  (if s.scores.getD [] = [] then []
    else [("scores_pre_cap", .obj ((s.scores.getD []).map fun (k, v) => (env.keyText k, v)))]) ++
  usage

/-- `_training_signal`. -/
def trainingSignal (env : StreamEnv) (s : AgentState) : Except PyExn (Option String) :=
  let path := s.selectionPath.getD ""
  if !env.trainingCaptureEnabled || s.failed || path == "" then .ok none
  else do
    let usage ← usageFields (s.llmUsage.getD [])
    return some (dumpJson env.platform (.obj (env.signalHead s path ++
      ("candidates", .arr (trainingCandidates 0 (s.candidates.getD []))) ::
        env.signalTail s usage)))

/-! ### publish -/

/-- The fields of a message on the done stream. -/
structure DoneMessage where
  jobId : String
  status : String
  payload : String
  training : Option String
deriving DecidableEq, Repr

/-- `len(s.encode("utf-8"))`. -/
def utf8Length (s : String) : Nat := s.utf8ByteSize

/-- The training signal `publish` lets through. -/
def StreamEnv.fitting (env : StreamEnv) (training : Option String) : Option String :=
  if env.trainingCaptureEnabled then
    training.filter fun t => t != "" && utf8Length t ≤ trainingFieldMaxBytes
  else none

/-- `StreamsPublisher.publish`. -/
def publish (env : StreamEnv) (jobId status payloadJson : String) (training : Option String) :
    Except PyExn DoneMessage := do
  let body ← if env.wire.enabled then env.wire.sealed [("payload", .str payloadJson)]
    else .ok payloadJson
  return ⟨jobId, status, body, env.fitting training⟩

/-- The message `publish_done` puts on the stream. -/
def doneMessage (env : StreamEnv) (s : AgentState) : Except PyExn DoneMessage := do
  let payload ← donePayload s
  let training ← trainingSignal env s
  publish env s.jobId payload.status.value (env.modelDumpJson payload) training

end MapServiceAgent.Native

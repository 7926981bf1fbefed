import MapServiceAgent.Native.Errors
import MapServiceAgent.Native.Schemas

/-!
# The state the nodes share, and the world they call

`AgentState` holds one option for each optional key. The hub and the model are
functions: a run asks each question at most once under the same tag, so fixing
the answers beforehand fixes the run, and a statement over all of them is one
over every behaviour. A `Job` adds what an outside observer counts.
-/

namespace MapServiceAgent.Native

/-! ### Settings and callees -/

/-- The settings the nodes read. -/
structure Settings where
  geminiMaxCallsPerRequest : Int
  reviewsEnrichEnabled : Bool
  reviewsMaxPlaces : Int
  reviewsDisplay : Int
  reviewsFetchCapPerJob : Int
  candidatesMaxBase : Int
  candidatesPerDay : Int
  personalizationEnabled : Bool
  rulesEnabled : Bool
  timelineEnabled : Bool
  timelineBufferMinutes : Int
deriving Repr

/-- Which search of a job: one for each theme keyword, one for each place the
    user picked. -/
inductive SearchCall where
  | theme (i : Nat)
  | selected (i : Nat)
deriving DecidableEq, Repr

/-- The hub's answers. A call may fail with any exception and answer with any
    JSON value. -/
structure Hub where
  fetchWeather (province city : String) (dateStart dateEnd : Date) : Except PyExn Json
  searchPlaces (call : SearchCall) (province city : String) (mobility keyword : Option String) :
    Except PyExn Json
  /-- `i` counts the review calls of the job. -/
  fetchReviews (i : Nat) (query : String) (display : Int) : Except PyExn Json
  filterMobilityRadius (lat lng : PyFloat) (mobility : String) (candidates : List Json) :
    Except PyExn Json
  scoreIndoorBonus (pois : List Json) (dayPopMax : Option Json) : Except PyExn Json
  estimateDwell (places : List Json) : Except PyExn Json
  /-- Of several searches that fail in parallel, which one fails first. -/
  firstFailure : Nat

/-- The model's answers to `generate_structured`: what it appends to the usage
    sink, and the validated response or the exception. `n` counts the job's
    earlier invocations. -/
structure Gemini where
  selection (n : Nat) (prompt system : String) : List Json × Except PyExn PlacesSelection
  reasons (n : Nat) (prompt system : String) : List Json × Except PyExn ReasonEnvelope

/-- All a job reads and never writes. -/
structure Env where
  platform : Platform
  settings : Settings
  hub : Hub
  gemini : Gemini
  /-- What `_segment_stats` holds. -/
  segmentStats : List (String × Json)

/-! ### The shared state -/

/-- One day of `state["plan"]`. -/
structure PlanDay where
  day : Int
  targetStops : Int
  indoorRatio : ℚ
  precipitationProb : Option Int
deriving DecidableEq, Repr

/-- What `plan_strategy` plans: a target for each day, and the pace. -/
structure Plan where
  days : List PlanDay
  pace : String
deriving DecidableEq, Repr

/-- One entry of `state["timeline"]`. -/
structure Slot where
  stayMinutes : Int
  visitStart : String
  visitEnd : String
  staySource : Option String := none
deriving DecidableEq, Repr

/-- `AgentState`; an absent key is `none`. -/
structure AgentState where
  jobId : String
  request : AgentRequest
  weather : Option Json := none
  candidates : Option (List Json) := none
  grounded : Option Bool := none
  scores : Option (List (PyKey × Json)) := none
  reviews : Option (List (PyKey × List String)) := none
  reviewsFetchUsed : Option Nat := none
  places : Option (List Place) := none
  pinnedContentIds : Option (List String) := none
  visitOrder : Option (List Int) := none
  legs : Option (List Leg) := none
  llmCallsUsed : Option Nat := none
  llmUsage : Option (List Json) := none
  reasons : Option (List (Int × String)) := none
  clothing : Option String := none
  summaries : Option (List (Int × List String)) := none
  plan : Option Plan := none
  timeline : Option (List (Int × Slot)) := none
  timelineStatus : Option TimelineStatus := none
  timelineOverflowDays : Option (List Int) := none
  warnings : Option (List String) := none
  degradedReason : Option String := none
  selectionPath : Option String := none
  error : Option String := none
  code : Option String := none
  retryable : Option Bool := none

namespace AgentState

/-- `bool(state.get("error"))`. -/
def failed (s : AgentState) : Bool := s.error.any (· != "")

/-- The three keys every failure sets. -/
def fail (s : AgentState) (error code : String) (retryable : Bool := false) : AgentState :=
  { s with error := some error, code := some code, retryable := some retryable }

/-- `state.update(failure)`. -/
def update (s : AgentState) (f : Failure) : AgentState := s.fail f.error f.code f.retryable

/-- `_add_warning`. -/
def addWarning (s : AgentState) (message : String) : AgentState :=
  let warnings := s.warnings.getD []
  { s with warnings := some (if message ∈ warnings then warnings else warnings ++ [message]) }

/-- A state fails by having an error text. -/
@[simp] theorem failed_fail (s : AgentState) (e c : String) (r : Bool) :
    (s.fail e c r).failed = (e != "") := rfl

/-- A warning is no failure. -/
@[simp] theorem failed_addWarning (s : AgentState) (m : String) :
    (s.addWarning m).failed = s.failed := rfl

end AgentState

/-- Every failure carries a text, so storing one stops the job. -/
theorem exceptionFailure_error_ne (e : PyExn) : (exceptionFailure e).error ≠ "" := by
  unfold exceptionFailure
  repeat' split
  all_goals simp [failure]

/-- The failure of an exception always has a text, so the state that takes it has failed. -/
@[simp] theorem AgentState.failed_update_exceptionFailure (s : AgentState) (e : PyExn) :
    (s.update (exceptionFailure e)).failed = true := by
  simp [update, exceptionFailure_error_ne e]

/-! ### A job -/

/-- The two schemas an answer is asked in. -/
inductive ResponseSchema where
  | placesSelection
  | reasonEnvelope
deriving DecidableEq, Repr

/-- One call of `generate_structured`, with the exception it ended in. -/
structure Invocation where
  schema : ResponseSchema
  prompt : String
  failure : Option PyExn
deriving Repr

/-- The state of a run and what the world saw of it: the model invocations and
    the messages on the done stream. No node reads the latter two. -/
structure Job where
  state : AgentState
  invocations : List Invocation := []
  published : List JobDonePayload := []

/-- A computation on a job. What it wrote before it raised stays written. -/
abbrev JobM (α : Type) := Job → Except PyExn α × Job

/-- A node that only touches the state. -/
def JobM.ofState (f : AgentState → Except PyExn AgentState) : JobM Unit := fun j =>
  match f j.state with
  | .ok s => (.ok (), { j with state := s })
  | .error e => (.error e, j)

end MapServiceAgent.Native

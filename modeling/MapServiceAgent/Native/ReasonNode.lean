import MapServiceAgent.Native.Prompts
import MapServiceAgent.Native.StructuredCall

/-!
# The reason node

`llm_reason` asks for a reason for each place and once more for the places left
out. Whatever goes wrong, the job goes on without.
-/

namespace MapServiceAgent.Native

/-- The feedback of the second question. -/
def coverageFeedback : String :=
  "<error_feedback>\n" ++
  "아래 <places> 는 직전 응답에서 reason 이 누락된 장소만\n" ++
  "추린 목록입니다. 각 place_id 에 대해 1건씩 작성하십시오.\n" ++
  "</error_feedback>\n"

/-- `_ask`. -/
def askReasons (env : Env) (targets : List Place) (suffix : String) : JobM ReasonEnvelope := fun j =>
  let s := j.state
  match buildReasonPrompt env.platform s.request (s.weather.getD (.obj [])) targets
    (s.reviews.getD []) with
  -- a prompt that cannot be built costs no call
  | .error e => (.error e, j)
  | .ok (system, prompt) =>
    callStructured env.gemini.reasons .reasonEnvelope env.settings.geminiMaxCallsPerRequest
      system (prompt ++ suffix) j

/-- `_collect`: the first reason of each place asked about. -/
def collectReasons (validIds : List Int) (reasons : List PlaceReason) : List (Int × String) :=
  reasons.foldl (fun collected r =>
    if r.placeId ∈ validIds ∧ (collected.lookup r.placeId).isNone
    then collected ++ [(r.placeId, r.reason)] else collected) []

/-- `setdefault` for every entry. -/
def mergeReasons (reasons more : List (Int × String)) : List (Int × String) :=
  more.foldl (fun reasons (pid, text) =>
    if (reasons.lookup pid).isNone then reasons ++ [(pid, text)] else reasons) reasons

/-- The places without a reason yet. -/
def withoutReason (reasons : List (Int × String)) (places : List Place) : List Place :=
  places.filter fun p => (reasons.lookup p.placeId).isNone

/-- The end of `llm_reason`. -/
def finishReasons (reasons : List (Int × String)) (clothing : String) (s : AgentState) :
    AgentState :=
  let s := if withoutReason reasons (s.places.getD []) = [] then s
    else { s with degradedReason := some "reason_coverage_partial" }
  -- no reason at all: the clothing is not kept either
  if reasons = [] then s else { s with reasons := some reasons, clothing := some clothing }

/-- The second question, if some place has no reason and the budget allows. -/
def completeReasons (env : Env) (reasons : List (Int × String)) (clothing : String) : JobM Unit :=
  fun j =>
    let places := j.state.places.getD []
    let missing := withoutReason reasons places
    -- all have a reason, or the budget is spent
    if missing = [] ∨ env.settings.geminiMaxCallsPerRequest ≤ j.state.callsUsed then
      (.ok (), { j with state := finishReasons reasons clothing j.state })
    else
      match askReasons env missing coverageFeedback j with
      | (.ok envelope, j) =>
        let more := collectReasons (places.map (·.placeId)) envelope.reasons
        -- the first answer's clothing stands
        let clothing := if clothing = "" then envelope.clothing else clothing
        let s := finishReasons (mergeReasons reasons more) clothing j.state
        (.ok (), { j with state := s })
      | (.error e, j) =>
        -- the reasons so far are kept
        if e.isException then
          (.ok (), { j with state := finishReasons reasons clothing j.state })
        else (.error e, j)

/-- The reason a failed question leaves for degrading. -/
def degradedReasonOf : PyExn → String
  | .llmBudgetExceeded => "llm_budget_exhausted"
  | e => "llm_reason_failed:" ++ e.name

/-- Without reasons the places are published all the same, and the state says why. -/
def llmReason (env : Env) : JobM Unit := fun j =>
  let places := j.state.places.getD []
  if j.state.failed ∨ places = [] then (.ok (), j)
  else
    match askReasons env places "" j with
    | (.error e, j) =>
      if e.isException then
        (.ok (), { j with state := { j.state with degradedReason := some (degradedReasonOf e) } })
      else (.error e, j)
    | (.ok envelope, j) =>
      let reasons := collectReasons (places.map (·.placeId)) envelope.reasons
      completeReasons env reasons envelope.clothing j

end MapServiceAgent.Native

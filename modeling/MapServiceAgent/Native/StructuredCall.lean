import MapServiceAgent.Native.AgentState

/-!
# Structured calls on a budget

`call_structured` spends one unit of the job's budget on each invocation of the
model, the corrective retry included.
-/

namespace MapServiceAgent.Native

variable {α : Type}

/-- `_FEEDBACK_TRUNCATE`. -/
def feedbackTruncate : Nat := 500

/-- `_escape_feedback`. -/
def escapeFeedback (text : String) : String := sanitizeText text feedbackTruncate

/-- Invocations the job has paid for. -/
def AgentState.callsUsed (s : AgentState) : Nat := s.llmCallsUsed.getD 0

/-- One invocation of the model more. -/
def AgentState.spendCall (s : AgentState) : AgentState :=
  { s with llmCallsUsed := some (s.callsUsed + 1) }

/-- It is counted once. -/
@[simp] theorem AgentState.callsUsed_spendCall (s : AgentState) :
    s.spendCall.callsUsed = s.callsUsed + 1 := rfl

/-- `_consume_budget`. -/
def consumeBudget (maxCalls : Int) (s : AgentState) : Except PyExn AgentState :=
  -- the call is paid for before it is made
  if maxCalls ≤ s.callsUsed then .error .llmBudgetExceeded else .ok s.spendCall

/-- How the model answers one kind of question. -/
abbrev Ask (α : Type) := (n : Nat) → (prompt system : String) → List Json × Except PyExn α

/-- The exception of a failed answer. -/
def failureOf : Except PyExn α → Option PyExn
  | .ok _ => none
  | .error e => some e

/-- One `generate_structured`: the answer, and the sink with its usage. -/
def generateStructured (ask : Ask α) (schema : ResponseSchema) (system prompt : String)
    (usage : List Json) (j : Job) : (Except PyExn α × List Json) × Job :=
  let (used, answer) := ask j.invocations.length prompt system
  ((answer, usage ++ used),
    { j with invocations := j.invocations ++ [⟨schema, prompt, failureOf answer⟩] })

/-- What a retry adds to the prompt. -/
def errorFeedback (cause rawText : String) : String :=
  "<error_feedback>\n" ++
  "직전 응답이 JSON 스키마 검증에 실패했습니다. 아래 오류를\n" ++
  "교정하여, 스키마에 정확히 부합하는 JSON 만 다시 출력하십시오.\n" ++
  "오류: " ++ escapeFeedback cause ++ "\n" ++
  "무효 출력(일부): " ++ escapeFeedback rawText ++ "\n" ++
  "</error_feedback>\n"

/-- The prompt with the error it led to. -/
def correctivePrompt (prompt cause rawText : String) : String :=
  prompt ++ errorFeedback cause rawText

/-- `_call`: asks, and once more when the answer did not fit the schema, was
    not cut off, and the budget allows. -/
def callWithRetry (ask : Ask α) (schema : ResponseSchema) (maxCalls : Int)
    (system prompt : String) (j : Job) : (Except PyExn α × List Json) × Job :=
  let ((answer, usage), j) := generateStructured ask schema system prompt [] j
  match answer with
  | .error (.structuredOutput truncated rawText cause) =>
    -- an answer cut off would be cut off again
    if truncated ∨ maxCalls ≤ j.state.callsUsed then ((answer, usage), j)
    else
      generateStructured ask schema system (correctivePrompt prompt cause rawText) usage
        { j with state := j.state.spendCall }
  -- an answer, or an exception that asking again does not mend
  | _ => ((answer, usage), j)

/-- The `finally` of `call_structured`. -/
def AgentState.addUsage (s : AgentState) (usage : List Json) : AgentState :=
  if usage = [] then s else { s with llmUsage := some (s.llmUsage.getD [] ++ usage) }

/-- The budget is taken before the call, the usage is noted after it, whether it raised
    or not. -/
def callStructured (ask : Ask α) (schema : ResponseSchema) (maxCalls : Int)
    (system prompt : String) : JobM α := fun j =>
  match consumeBudget maxCalls j.state with
  | .error e => (.error e, j)
  | .ok s =>
    let ((answer, usage), j) :=
      callWithRetry ask schema maxCalls system prompt { j with state := s }
    (answer, { j with state := j.state.addUsage usage })

end MapServiceAgent.Native

import MapServiceAgent.Native.Python

/-!
# Fixed failure codes

What a failed job says about its cause. No text of an exception is carried
over: a failure is one of the codes below and whether asking again may help.
-/

namespace MapServiceAgent.Native

/-- The keys `failure` sets. -/
structure Failure where
  error : String
  code : String
  retryable : Bool
deriving DecidableEq, Repr

/-- A failure's text is its code, so nothing of the exception reaches the client. -/
def failure (code : String := "generation_failed") (retryable : Bool := false) : Failure :=
  ⟨code, code, retryable⟩

/-- `exc.response.json().get("detail")`, or `None` when the body is no object. -/
def responseDetail : Option Json → Json
  | some (.obj m) => dictGet m "detail"
  | _ => .null

/-- The code of an exception, and whether a retry may help. -/
def exceptionFailure : PyExn → Failure
  | .geminiQuota _ => failure "quota_exceeded"
  | .structuredOutput .. => failure "selection_invalid"
  | .llmBudgetExceeded => failure "selection_invalid"
  | .cancelled | .timerCancelled => failure "upstream_unavailable" true
  | .timeoutError => failure "upstream_unavailable" true
  | .httpTimeout _ => failure "upstream_unavailable" true
  | .httpStatus status body =>
    -- the hub tells a provider outage from a successful empty search
    match responseDetail body with
    | .obj detail =>
      if (dictGet detail "code").eqStr "upstream_unavailable" then
        failure "upstream_unavailable"
          (match dictGet detail "retryable" with
          | .bool true => true
          | _ => false)
      else if status = 429 then failure "quota_exceeded"
      else failure "upstream_unavailable" (decide (500 ≤ status))
    | _ =>
      if status = 429 then failure "quota_exceeded"
      else failure "upstream_unavailable" (decide (500 ≤ status))
  | .httpRequest _ => failure "upstream_unavailable" true
  | _ => failure

end MapServiceAgent.Native

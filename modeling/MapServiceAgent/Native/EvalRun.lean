import MapServiceAgent.Native.Judge
import MapServiceAgent.Native.SegmentStats

/-!
# The evaluation run

The offline program scores one message for each case, asks a minimum of each of
them, sums the scores up and compares the sums with those of an earlier run.
-/

namespace MapServiceAgent.Native

/-! ### summarize -/

/-- `ratio`. -/
def ratio (num den : Nat) : Json :=
  if den = 0 then .null else .float (.fin (round4 (num / den)))

/-- Whether the message counts as well formed. -/
def SchemaScore.isOk : SchemaScore → Bool
  | ok _ => true
  | failed _ => false

/-- Each ratio is over the cases it applies to. -/
def CaseScore.summarize (scored : List CaseScore) : List (String × Json) :=
  let known := (scored.map (·.grounded)).filter (·.known)
  let rules := scored.filterMap (·.rules)
  let routes := (scored.filterMap (·.route)).filter (·.present)
  let timelines := (scored.filterMap (·.timeline)).filter (·.applicable)
  -- no case, no ratios
  if scored.isEmpty then [("cases", .int 0)]
  else
    [("cases", .int scored.length),
     ("schema_ok_ratio", ratio (scored.countP (·.schema.isOk)) scored.length),
     ("invented_ratio", ratio (known.countP (·.invented)) known.length),
     ("rule_clean_ratio", ratio (rules.countP fun r => r.violations == 0) rules.length),
     ("route_ok_ratio", ratio (routes.countP (·.ok)) routes.length),
     ("timeline_ok_ratio", ratio (timelines.countP (·.ok)) timelines.length)]

/-! ### compare -/

/-- `LOWER_IS_BETTER`. -/
def lowerIsBetter : List String := ["invented_ratio"]

/-- A number as a float. -/
def Json.real : Json → Except PyExn PyFloat
  | .bool b => .ok (if b then 1 else 0)
  | .int i => floatOfInt i
  | .float x => .ok x
  | _ => .error .typeError

/-- `v - w`, where one of them is a float. -/
def pySub (v w : Json) : Except PyExn PyFloat := do return (← v.real) + -(← w.real)

/-- What is said of an axis that was not measured. -/
def unmeasuredText (pf : Platform) (axis : String) (base : Json) : String :=
  axis ++ ": 이번에 재지 못했다(기준선 " ++ pyStr pf base ++ ")"

/-- What is said of an axis that got worse. -/
def worseText (pf : Platform) (axis : String) (base now : Json) : String :=
  axis ++ ": " ++ pyStr pf base ++ " → " ++ pyStr pf now

/-- The loop of `compare`, for one axis. -/
def compareAxis (pf : Platform) (current : List (String × Json)) (tolerance : PyFloat)
    (axis : String) (base : Json) : Except PyExn (Option String) :=
  -- a count, not a score
  if axis = "cases" then .ok none
  else
    match base, dictGet current axis with
    -- the baseline did not measure it either
    | .null, _ => .ok none
    | base, .null => .ok (some (unmeasuredText pf axis base))
    | base, now => do
      -- what is better when it is low is subtracted the other way round
      let worse ← if axis ∈ lowerIsBetter then pySub now base else pySub base now
      return if tolerance < worse then some (worseText pf axis base now) else none

/-- A line for every axis of the baseline that has become worse. -/
def compare (pf : Platform) (current baseline : List (String × Json)) (tolerance : PyFloat) :
    Except PyExn (List String) := do
  let found ← baseline.mapM fun (axis, base) => compareAxis pf current tolerance axis base
  return found.filterMap id

/-! ### main -/

/-- The arguments, and what the files hold that they name. A file that is not
    there, or does not decode, holds `null`. -/
structure EvalArgs where
  cases : List Json
  results : String → Json
  training : Option (String → Json)
  baseline : Option Json
  tolerance : PyFloat
  writeBaseline : Bool

/-- How a run ends. -/
inductive EvalOutcome where
  | noCases
  | missing (count : Nat) (first : List String)
  | belowStandard (cases : List String)
  | wrote (summary : List (String × Json))
  | noBaseline
  | regressed (axes : List String)
  | passed

/-- What `main` returns. -/
def EvalOutcome.exitCode : EvalOutcome → Int
  | wrote _ | passed => 0
  | _ => 1

/-- One case: its identifier if there is no result for it, its score otherwise. -/
def judgeCase (pf : Platform) (args : EvalArgs) (case : Json) : Except PyExn (Json ⊕ CaseScore) := do
  let cid ← case.item "id"
  let name := pyStr pf cid ++ ".json"
  match case, args.results name with
  -- there is no result file of that name
  | _, .null => return .inl cid
  | .obj case, payload =>
    return .inr (← scoreCase pf case payload ((args.training.map (· name)).getD .null))
  | _, _ => throw .attributeError

/-- The minimum asked of every case. -/
def CaseScore.meetsStandard (s : CaseScore) : Bool :=
  s.schema.isOk && s.grounded.grounded && s.route.any (·.ok) &&
    s.rules.all (fun r => r.violations == 0) && s.timeline.all fun t => !t.applicable || t.ok

/-- `', '.join(ids)`, before the commas. -/
def joinable (ids : List Json) : Except PyExn (List String) :=
  ids.mapM fun
    | .str s => .ok s
    | _ => .error .typeError

/-- `main`. -/
def evalMain (pf : Platform) (args : EvalArgs) : Except PyExn EvalOutcome :=
  if args.cases.isEmpty then .ok .noCases
  else do
    let judged ← args.cases.mapM (judgeCase pf args)
    let missing := judged.filterMap (·.getLeft?)
    let scored := judged.filterMap (·.getRight?)
    let failed := (scored.filter (!·.meetsStandard)).map (·.caseId)
    let current := CaseScore.summarize scored
    -- a result that is missing is told before any that is poor
    if !missing.isEmpty then return .missing missing.length (← joinable (missing.take 5))
    -- the minimum of every case comes before the comparison
    else if !failed.isEmpty || scored.isEmpty then return .belowStandard (← joinable failed)
    else
      match args.baseline with
      | none => return .passed
      | some baseline =>
        -- `--write-baseline` without `--baseline` writes nothing
        if args.writeBaseline then return .wrote current
        else
          match baseline with
          | .null => return .noBaseline
          | .obj baseline =>
            let regressions ← compare pf current baseline args.tolerance
            return if regressions.isEmpty then .passed else .regressed regressions
          | _ => throw .attributeError

end MapServiceAgent.Native

import Mathlib.Data.List.Dedup
import MapServiceAgent.Native.Scorer
import MapServiceAgent.Native.SelectedPlaces

/-!
# Scoring a case

`score_case` puts the axes of the offline evaluation together: the form of a
message, where its places come from, how far they lie apart, the order of the
visits and their times, and for a route whether the user's order was kept.
-/

namespace MapServiceAgent.Native

/-! ### Values -/

/-- `v[k]`. -/
def Json.item (k : String) : Json → Except PyExn Json
  | .obj m => dictItem m k
  | _ => .error .typeError

/-- `v.get(k, default)`. -/
def Json.getOr (k : String) (v default : Json) : Except PyExn Json :=
  match v with
  | .obj m => .ok ((m.lookup k).getD default)
  | _ => .error .attributeError

mutual

/-- `v == w`; no number equals what is none. -/
def pyEq : Json → Json → Bool
  | .null, .null => true
  | .str s, .str t => s == t
  | .arr l, .arr r => pyEqElems l r
  | .obj m, .obj n => m.length == n.length && pyEqFields m n
  -- `True == 1`, whatever the type of the number
  | .bool b, w => (w.num?).any fun y => (if b then 1 else 0) ≤ y && y ≤ (if b then 1 else 0)
  | .int i, w => (w.num?).any fun y => PyFloat.fin i ≤ y && y ≤ PyFloat.fin i
  | .float x, w => (w.num?).any fun y => x ≤ y && y ≤ x
  | _, _ => false

/-- Lists are equal place by place. -/
def pyEqElems : List Json → List Json → Bool
  | [], [] => true
  | v :: vs, w :: ws => pyEq v w && pyEqElems vs ws
  | _, _ => false

/-- Each entry of a dictionary is one of the other. -/
def pyEqFields : List (String × Json) → List (String × Json) → Bool
  | [], _ => true
  | (k, v) :: fs, n => (n.lookup k).any (pyEq v) && pyEqFields fs n

end

/-! ### score_grounded -/

/-- Whether the places of a message come from a source. -/
structure GroundedScore where
  known : Bool
  grounded : Bool
  invented : Bool
deriving DecidableEq, Repr

/-- The sources the judge knows. -/
def judgedSources : List String := ["kakao", "durunubi"]

/-- Whether an entry says that it was found at one of them. -/
def hasSource : Json → Except PyExn Bool
  | .obj m =>
    match dictGet m "grounded" with
    | .bool true => do
      -- looking an unhashable value up in a set raises
      let _ ← (dictGet m "source").key
      match dictGet m "source", dictGet m "content_id" with
      | .str src, .str cid =>
        return decide (src ∈ judgedSources) && strip cid != "" && !hasSubstring "stub" (lower cid)
      | _, _ => return false
    | _ => .ok false
  | _ => .ok false

/-- Whether the training signal, if there is one, says that places were made up. -/
def admitsInvention (training : Json) : Except PyExn Bool :=
  if training.truthy then do
    match ← training.get "grounded" with
    | .bool false => return true
    | _ =>
      let path ← training.get "path"
      return path.eqStr "invent" || path.eqStr "select_then_invent"
  else .ok false

/-- `payload.get("places") if isinstance(payload, dict) else None`. -/
def messagePlaces : Json → Json
  | .obj m => dictGet m "places"
  | _ => .null

/-- A message without places is grounded in nothing and counts as invented. -/
def scoreGrounded (payload training : Json) : Except PyExn GroundedScore :=
  if (messagePlaces payload).truthy then do
    let sourced ← (← (messagePlaces payload).iter).allM hasSource
    let grounded := sourced && !(← admitsInvention training)
    return ⟨true, grounded, !grounded⟩
  else .ok ⟨true, false, true⟩

/-! ### score_rules -/

/-- A place too far from the others of its day. -/
structure RuleViolation where
  day : Int
  name : Json
  km : PyFloat
deriving Repr

/-- What `score_rules` returns where there is a radius to keep to. -/
structure RulesScore where
  maxRadiusKm : Json
  violations : Nat
  detail : List RuleViolation
deriving Repr

/-- `float(p[key])`. -/
def floatItem (pf : Platform) (key : String) (p : Json) : Except PyExn PyFloat := do
  pyFloat pf (← p.item key)

/-- `sum(float(p[key]) for p in group) / len(group)`. -/
def meanOf (pf : Platform) (key : String) (group : List Json) : Except PyExn PyFloat := do
  let values ← group.mapM (floatItem pf key)
  return (values.foldl (· + ·) 0).scale (1 / group.length)

/-- `d > r`. -/
def exceeds (d : PyFloat) (r : Json) : Except PyExn Bool :=
  match r.num? with
  | some x => .ok (x.ltb d)
  | none => .error .typeError

/-- A place of the day, if it lies too far from the centre. -/
def ruleViolation (pf : Platform) (maxRadiusKm : Json) (day : Int) (clat clng : PyFloat) (p : Json) :
    Except PyExn (Option RuleViolation) := do
  let lat ← floatItem pf "lat" p
  let lng ← floatItem pf "lng" p
  let km := pf.straightKm clat clng lat lng
  if ← exceeds km maxRadiusKm then
    let name ← p.get "name"
    return some ⟨day, name, km.round2⟩
  else return none

/-- The places of a day that lie too far from its centre. -/
def dayViolations (pf : Platform) (maxRadiusKm : Json) (day : Int) (group : List Json) :
    Except PyExn (List RuleViolation) := do
  let clat ← meanOf pf "lat" group
  let clng ← meanOf pf "lng" group
  let found ← group.mapM (ruleViolation pf maxRadiusKm day clat clng)
  return found.filterMap id

/-- `score_rules`: `none` where there is no radius. -/
def scoreRules (pf : Platform) (payload : List (String × Json)) (maxRadiusKm : Json) :
    Except PyExn (Option RulesScore) :=
  match maxRadiusKm with
  -- the case asks for no radius
  | .null => .ok none
  | _ => do
    let places ← ((dictGet payload "places").orElse (.arr [])).iter
    -- an entry without a day counts for the first
    let days ← places.mapM fun p => do pyInt pf (← p.getOr "day" (.int 1))
    let violations ← (sortedBy id days.dedup).mapM fun day =>
      dayViolations pf maxRadiusKm day (((days.zip places).filter (·.1 = day)).map (·.2))
    return some ⟨maxRadiusKm, violations.flatten.length, violations.flatten.take 5⟩

/-! ### The user's order -/

/-- Whether a visit goes to another place than the given one. -/
def otherPlace (visit given : Json) : Except PyExn Bool := do
  let cid ← given.get "content_id"
  -- names are compared where the given place has no identifier
  if cid.truthy then return !pyEq (← visit.get "content_id") cid
  else return !pyEq (← visit.get "name") (← given.get "name")

/-- Whether a visit is not the one the user put there. -/
def visitChanged (visit given : Json) : Except PyExn Bool := do
  if ← otherPlace visit given then return true
  else return !pyEq (← visit.getOr "day" (.int 1)) (← given.getOr "day" (.int 1))

/-- Whether the visits are not those the user asked for, one by one. -/
def orderChanged (payload : List (String × Json)) (selected : Json) : Except PyExn Bool := do
  let places ← (← dictItem payload "places").iter
  let byId ← places.mapM fun p => do return ((← (← p.item "place_id").key), p)
  let order ← ((dictGet payload "visit_order").orElse (.arr [])).iter
  let visits := orderedPlaces byId [] (.arr order)
  let selected ← selected.iter
  -- a visit more or less is a change as well
  if visits.length ≠ selected.length then return true
  else (visits.zip selected).anyM fun (visit, given) => visitChanged visit given

/-- A route found wanting for one more thing. -/
def RouteScore.blame (score : RouteScore) (problem : String) : RouteScore :=
  { score with ok := false, problems := some (score.problems.getD [] ++ [problem]) }

/-! ### score_case -/

/-- What `score_case` returns; an axis it did not judge is `none`. -/
structure CaseScore where
  caseId : Json
  schema : SchemaScore
  grounded : GroundedScore
  rules : Option RulesScore := none
  route : Option RouteScore := none
  timeline : Option TimelineScore := none
deriving Repr

/-- Whether the user asked for an order, a route that is not to be optimized, and
    the visits do not keep to it. -/
def breaksOrder (payload : List (String × Json)) (request : Json) : Except PyExn Bool := do
  let stage ← request.get "stage"
  let optimize ← request.getOr "optimize" (.bool false)
  let selected ← request.get "places"
  if stage.eqStr "route" && !optimize.truthy && selected.truthy then orderChanged payload selected
  else return false

/-- The later axes are measured on a message that is well formed, and none of them on
    another. -/
def scoreCase (pf : Platform) (case : List (String × Json)) (payload training : Json) :
    Except PyExn CaseScore := do
  let expect := (dictGet case "expect").orElse (.obj [])
  let schema ← scoreSchema pf payload
  let grounded ← scoreGrounded payload training
  match schema, payload with
  | .ok _, .obj payload => do
    let rules ← scoreRules pf payload (← expect.get "max_radius_km")
    let route ← scoreRoute payload
    let timeStart ← expect.get "time_start"
    let timeEnd ← expect.get "time_end"
    let timeline ← scoreTimeline pf payload timeStart timeEnd
      (timeStart.truthy || timeEnd.truthy)
    let changed ← breaksOrder payload ((dictGet case "request").orElse (.obj []))
    return { caseId := dictGet case "id", schema, grounded, rules
             route := some (if changed then route.blame "사용자 방문 순서 변경" else route)
             timeline := some timeline }
  -- of a message that has not the right form nothing else is judged
  | _, _ => return { caseId := dictGet case "id", schema, grounded }

end MapServiceAgent.Native

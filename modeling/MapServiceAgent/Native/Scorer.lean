import MapServiceAgent.ForStd.List
import MapServiceAgent.Native.Schemas

/-!
# Scoring a message

The judge of the offline evaluation, which a published message reaches as JSON:
`score_schema` looks at its form, `score_route` at the order of the visits, and
`score_timeline` reads the times back.
-/

namespace MapServiceAgent.Native

/-! ### A message as JSON -/

/-- A float as the schema library writes it: what is no number becomes `null`. -/
def jsonFloat (x : PyFloat) : Json := if x.isFinite then .float x else .null

/-- An optional value, `null` when there is none. -/
def jsonOption {α : Type} (f : α → Json) (v : Option α) : Json := v.elim .null f

/-- The fields of a place, in declaration order. -/
def Place.jsonFields (p : Place) : List (String × Json) :=
  [("place_id", .int p.placeId), ("day", .int p.day), ("name", .str p.name),
   ("address", .str p.address), ("lat", jsonFloat p.lat), ("lng", jsonFloat p.lng),
   ("recommended_visit_time", .str p.recommendedVisitTime),
   ("content_id", jsonOption .str p.contentId), ("source", jsonOption .str p.source),
   ("category", jsonOption .str p.category),
   ("category_group_code", jsonOption .str p.categoryGroupCode),
   ("phone", jsonOption .str p.phone), ("place_url", jsonOption .str p.placeUrl),
   ("crs_dstnc_km", jsonOption jsonFloat p.crsDstncKm),
   ("crs_total_min", jsonOption .int p.crsTotalMin), ("crs_level", jsonOption .int p.crsLevel),
   ("brd_div", jsonOption .str p.brdDiv), ("gpx_url", jsonOption .str p.gpxUrl),
   ("route_idx", jsonOption .str p.routeIdx), ("grounded", .bool p.grounded),
   ("stay_minutes", jsonOption .int p.stayMinutes), ("visit_start", jsonOption .str p.visitStart),
   ("visit_end", jsonOption .str p.visitEnd), ("stay_source", jsonOption .str p.staySource),
   ("reason", jsonOption .str p.reason),
   ("bullets", jsonOption (fun l => .arr (l.map .str)) p.bullets)]

/-- The fields of a leg, under their aliases. -/
def Leg.jsonFields (l : Leg) : List (String × Json) :=
  [("from", .int l.fromPlaceId), ("to", .int l.toPlaceId), ("mode", .str l.mode.value),
   ("estimated_distance_km", jsonFloat l.estimatedDistanceKm),
   ("estimated_duration_min", .int l.estimatedDurationMin)]

/-- A status as the message has it. -/
def TimelineStatus.value : TimelineStatus → String
  | ok => "ok"
  | trimmed => "trimmed"
  | unverified => "unverified"

/-- A status as the message has it. -/
def JobStatus.value : JobStatus → String
  | done => "done"
  | failed => "failed"

/-- `model_dump_json(by_alias=True)`, read back. -/
def JobDonePayload.jsonFields (p : JobDonePayload) : List (String × Json) :=
  [("job_id", .str p.jobId), ("status", .str p.status.value),
   ("places", jsonOption (fun l => .arr (l.map fun x => .obj x.jsonFields)) p.places),
   ("visit_order", jsonOption (fun l => .arr (l.map .int)) p.visitOrder),
   ("legs", jsonOption (fun l => .arr (l.map fun x => .obj x.jsonFields)) p.legs),
   ("clothing", jsonOption .str p.clothing),
   ("timeline_status", jsonOption (fun t => .str t.value) p.timelineStatus),
   ("warnings", jsonOption (fun l => .arr (l.map .str)) p.warnings),
   ("error", jsonOption .str p.error), ("code", jsonOption .str p.code),
   ("retryable", jsonOption .bool p.retryable)]

/-! ### score_schema -/

/-- Well formed with so many places, or what is wrong first. -/
inductive SchemaScore where
  | ok (placeCount : Nat)
  | failed (reason : String)
deriving DecidableEq, Repr

/-- How the loop of `score_schema` ends early: with a verdict, or an exception. -/
inductive SchemaExit where
  | rejected (reason : String)
  | raised (e : PyExn)

/-- An integer, and no boolean, from `lo` on. -/
def checkInt (lo : Int) (reason : String) : Json → Except SchemaExit Int
  -- a boolean is no integer here, though the language has it as one
  | .int i => if i < lo then .error (.rejected reason) else .ok i
  | _ => .error (.rejected reason)

/-- A name is a text that is not blank. -/
def checkName : Json → Except SchemaExit Unit
  | .str s => if strip s = "" then .error (.rejected "invalid name") else .ok ()
  | _ => .error (.rejected "invalid name")

/-- A finite number between `lo` and `hi`. -/
def checkCoord (m : List (String × Json)) (key : String) (lo hi : ℚ) : Except SchemaExit Unit :=
  match dictGet m key with
  | .int i =>
    -- `isfinite` raises on an integer that fits no double
    match floatOfInt i with
    | .error e => .error (.raised e)
    | .ok _ => if lo ≤ i ∧ i ≤ hi then .ok () else .error (.rejected ("invalid " ++ key))
  | .float (.fin q) => if lo ≤ q ∧ q ≤ hi then .ok () else .error (.rejected ("invalid " ++ key))
  | _ => .error (.rejected ("invalid " ++ key))

/-- The identifier of a place that passes. -/
def checkPlace : Json → Except SchemaExit Int
  | .obj m => do
    let _ ← checkInt 1 "invalid day" (dictGet m "day")
    let pid ← checkInt 0 "invalid place_id" (dictGet m "place_id")
    checkName (dictGet m "name")
    checkCoord m "lat" 33 43
    checkCoord m "lng" 124 132
    return pid
  | _ => .error (.rejected "place is not an object")

/-- A message of a job that is done, each of its places well formed and numbered once. -/
def scoreSchema (pf : Platform) (payload : Json) : Except PyExn SchemaScore :=
  match payload with
  | .obj m =>
    if (dictGet m "status").eqStr "done" then
      match dictGet m "places" with
      -- the first entry that is wrong decides
      | .arr (p :: ps) =>
        match (p :: ps).mapM checkPlace with
        | .error (.rejected reason) => .ok (.failed reason)
        | .error (.raised e) => .error e
        | .ok ids => .ok (if ids.Nodup then .ok (p :: ps).length else .failed "duplicate place_id")
      | _ => .ok (.failed "places empty")
    else .ok (.failed ("status=" ++ pyStr pf (dictGet m "status")))
  | _ => .ok (.failed "not an object")

/-! ### score_route -/

/-- What `score_route` returns; a key it leaves out is `none`. -/
structure RouteScore where
  present : Bool
  ok : Bool
  problems : Option (List String) := none
  placeCount : Option Nat := none
deriving DecidableEq, Repr

/-- `v == i` for an integer `i`. -/
def Json.eqInt (i : Int) : Json → Bool
  | .bool b => (if b then 1 else 0) == i
  | .int j => j == i
  | .float (.fin q) => q == i
  | _ => false

/-- An integer, which no boolean is here. -/
def Json.int? : Json → Option Int
  | .int i => some i
  | _ => none

/-- A list of integers. -/
def Json.ints? : Json → Option (List Int)
  | .arr l => l.mapM Json.int?
  | _ => none

/-- Whether a leg goes from the one place to the other. -/
def connects (leg : Json) (ends : Int × Int) : Bool :=
  match leg with
  | .obj m => (dictGet m "from").eqInt ends.1 && (dictGet m "to").eqInt ends.2
  | _ => false

/-- What is wrong with the legs of a route. -/
def legProblems (order : List Int) (legs : Json) : List String :=
  match legs.orElse (.arr []) with
  | .arr legs =>
    -- the legs are looked at one by one only if their number is right
    if legs.length = order.length - 1 then
      ((legs.zip (pairs order)).filter fun p => !connects p.1 p.2).map fun _ =>
        "방문 순서와 구간 연결 불일치"
    else ["구간 수 불일치"]
  | _ => ["구간 수 불일치"]

/-- What is wrong with a route over places of these identifiers. -/
def routeProblems (ids : List Json) (order : List Int) (legs : Json) : List String :=
  let unknown := order.filter fun i => !ids.any (·.eqInt i)
  (if order.length ≠ ids.length then
    ["길이 불일치 order=" ++ toString order.length ++ " places=" ++ toString ids.length] else []) ++
  (if ¬ order.Nodup then ["중복 방문"] else []) ++
  (if unknown ≠ [] then ["목록에 없는 place_id [" ++
    String.intercalate ", " ((unknown.take 3).map toString) ++ "]"] else []) ++
  legProblems order legs

/-- A message without an order has no route to judge; one that is no list of numbers is
    a problem of its own. -/
def scoreRoute (payload : List (String × Json)) : Except PyExn RouteScore := do
  let places ← ((dictGet payload "places").orElse (.arr [])).iter
  let ids ← places.mapM (·.get "place_id")
  match dictGet payload "visit_order" with
  -- without an order there is no route, which is no route in order either
  | .null => return { present := false, ok := false, placeCount := some places.length }
  | order =>
    match order.ints? with
    | none => return { present := true, ok := false, problems := some ["invalid visit_order"] }
    | some order =>
      let problems := routeProblems ids order (dictGet payload "legs")
      return { present := true, ok := problems.isEmpty, problems := some problems }

/-! ### Reading the times -/

/-- `_minutes`. -/
def minutes (pf : Platform) (hhmm : Json) : Option Int :=
  match hhmm with
  | .str s =>
    match s.toList with
    -- five characters, `HH:MM`
    | [h1, h2, ':', m1, m2] =>
      match pf.intOfStr (String.ofList [h1, h2]), pf.intOfStr (String.ofList [m1, m2]) with
      | some hour, some minute =>
        if 0 ≤ hour ∧ hour < 24 ∧ 0 ≤ minute ∧ minute < 60 then some (hour * 60 + minute) else none
      | _, _ => none
    | _ => none
  | _ => none

/-- `p.get("visit_start") or p.get("visit_end")` for any of the places. -/
def anyTimed : List Json → Except PyExn Bool
  | [] => .ok false
  | p :: ps => do
    if (← p.get "visit_start").truthy then return true
    else if (← p.get "visit_end").truthy then return true
    else anyTimed ps

/-- `by_id`: the entries that have a `place_id`, under it. -/
def placesById (places : List Json) : Except PyExn (List (PyKey × Json)) :=
  (places.filterMap fun
    | .obj m => (m.lookup "place_id").map fun pid => (pid, Json.obj m)
    | _ => none).mapM fun (pid, p) => do return (← pid.key, p)

/-- `ordered`: the places along `visit_order` if that is a list, as they stand
    otherwise. -/
def orderedPlaces (byId : List (PyKey × Json)) (places : List Json) (order : Json) : List Json :=
  match order with
  | .arr order => order.filterMap fun
      | .int i => (keyedBy (·.1) byId (.num (.fin i))).map (·.2)
      | _ => none
  | _ => places

/-- `legs`: the entries between two integer places, under these. -/
def legsByEnds (legs : List Json) : List ((Int × Int) × List (String × Json)) :=
  legs.filterMap fun
    | .obj m =>
      match dictGet m "from", dictGet m "to" with
      | .int a, .int b => some ((a, b), m)
      | _, _ => none
    | _ => none

/-! ### The score -/

/-- Whether visit times are due, and what is wrong with them. -/
structure TimelineScore where
  applicable : Bool
  ok : Bool
  problems : List String
deriving DecidableEq, Repr

/-- What the loop of `score_timeline` reads and never writes. -/
structure TimelineJudge where
  platform : Platform
  lo : Option Int
  hi : Option Int
  legs : List ((Int × Int) × List (String × Json))

/-- `legs.get((a, b), {}).get("estimated_duration_min", 0)`. -/
def TimelineJudge.travel (judge : TimelineJudge) (a b : Json) : Except PyExn Json := do
  let a ← a.key
  let b ← b.key
  -- the last entry of the two places counts, as in a dictionary
  let leg := keyedBy (fun ((x, y), _) => (PyKey.num (.fin x), PyKey.num (.fin y))) judge.legs (a, b)
  return (((leg.map (·.2)).getD []).lookup "estimated_duration_min").getD (.int 0)

/-- What the travel from the previous visit of the day gets wrong. -/
def travelProblem (day : String) (start prevEnd : Int) (travel : Json) :
    Except PyExn (List String) :=
  match travel with
  | .int t => do
    -- `isfinite` raises on an integer that fits no double
    let _ ← floatOfInt t
    if t < 0 then return [day ++ "일차 이동시간 오류"]
    else if start < prevEnd + t then return [day ++ "일차 방문/이동시간 중첩 또는 역행"]
    else return []
  | .float (.fin q) =>
    if q < 0 then .ok [day ++ "일차 이동시간 오류"]
    else if (start : ℚ) < prevEnd + q then .ok [day ++ "일차 방문/이동시간 중첩 또는 역행"]
    else .ok []
  | _ => .ok [day ++ "일차 이동시간 오류"]

/-- What one visit gets wrong on its own. -/
def TimelineJudge.visitProblems (judge : TimelineJudge) (day : String) (start stop : Int)
    (stay : Json) : List String :=
  (if stop < start then [day ++ "일차 시각 역행"] else []) ++
  (if judge.lo.any (start < ·) then [day ++ "일차 시작 시각 이전"] else []) ++
  (if judge.hi.any (· < stop) then [day ++ "일차 종료 시각 이후"] else []) ++
  match stay with
  -- a place need not say how long it is stayed at
  | .null => []
  | .int m => if m < 0 ∨ stop - start ≠ m then [day ++ "일차 체류시간 불일치"] else []
  | _ => [day ++ "일차 체류시간 불일치"]

/-- The last visit of each day so far: its place and its end. -/
abbrev Previous := List (PyKey × Json × Int)

/-- The loop of `score_timeline`. -/
def TimelineJudge.score (judge : TimelineJudge) (previous : Previous) (problems : List String) :
    List Json → Except PyExn (List String)
  | [] => .ok problems
  | p :: ps => do
    let day ← p.get "day"
    let text := pyStr judge.platform day
    match minutes judge.platform (← p.get "visit_start"),
      minutes judge.platform (← p.get "visit_end") with
    | some start, some stop => do
      let here := judge.visitProblems text start stop (← p.get "stay_minutes")
      let k ← day.key
      let pid ← p.get "place_id"
      -- the way is measured from the last visit of the same day
      let moved ← match previous.lookup k with
        | some (prev, prevEnd) => do travelProblem text start prevEnd (← judge.travel prev pid)
        | none => .ok []
      judge.score (dictSet previous k (pid, stop)) (problems ++ here ++ moved) ps
    -- a visit without times is not one to come from
    | _, _ => judge.score previous (problems ++ [text ++ "일차 시각 형식 오류 또는 누락"]) ps

/-- The places in their order, judged only if any of them has a time. -/
def scoreTimeline (pf : Platform) (payload : List (String × Json)) (timeStart timeEnd : Json)
    (required : Bool) : Except PyExn TimelineScore := do
  let places ← ((dictGet payload "places").orElse (.arr [])).iter
  let byId ← placesById places
  let ordered := orderedPlaces byId places (dictGet payload "visit_order")
  -- no place has a time: a problem only where times were asked for
  if !(← anyTimed ordered) then return ⟨required, false, ["방문 시각 누락"]⟩
  else
    let legs ← ((dictGet payload "legs").orElse (.arr [])).iter
    let judge : TimelineJudge :=
      ⟨pf, minutes pf timeStart, minutes pf timeEnd, legsByEnds legs⟩
    let problems ← judge.score [] [] ordered
    return ⟨true, problems.isEmpty, problems⟩

end MapServiceAgent.Native

import MapServiceAgent.Native.RouteNode

/-!
# Timeline nodes

`build_timeline` lays the stays, the travel and the buffers of each day end to
end; `fit_time_budget` shortens and drops where a day runs over.
-/

namespace MapServiceAgent.Native

/-- `_WARN_NO_OPENING_HOURS`. -/
def warnNoOpeningHours : String := "영업시간은 확인하지 않았습니다"

/-- `_WARN_TRAVEL_ESTIMATED`. -/
def warnTravelEstimated : String := "자동차·대중교통 이동시간은 추정값입니다"

/-- The warning of a trimmed timeline. -/
def warnTrimmed : String := "하루 활동 시간에 맞춰 일부 일정을 줄였습니다"

/-! ### Laying out the days -/

/-- `_minutes_to_hhmm`: past the end of the day it stays at 23:59. -/
def minutesToHhmm (minutes : Int) : String :=
  let capped := (max 0 (min minutes 1439)).toNat
  padNat 2 (capped / 60) ++ ":" ++ padNat 2 (capped % 60)

/-- `_leg_minutes`, as a dictionary read with default 0: the minutes from a stop
    to the next. -/
def legMinutes (legs : List Leg) (order : List Int) (pid : Int) : Int :=
  (keyedBy (·.1) (order.zip legs) pid).elim 0 fun x => max 0 x.2.estimatedDurationMin

/-- What the loop of `_plan_timeline` reads and never writes. -/
structure DayPlan where
  placeOf : Int → Option Place
  /-- Dictionaries read with default 0. -/
  travel : Int → Int
  stay : Int → Int
  startMin : Int
  endMin : Int
  bufferMin : Int

/-- What it accumulates. -/
structure Layout where
  timeline : List (Int × Slot) := []
  overflowed : List Int := []

/-- The minute a visit starts: the cursor, or the day's first minute on a new
    day. -/
def DayPlan.startOf (plan : DayPlan) (cursor : Int) (currentDay : Option Int) (day : Int) : Int :=
  if currentDay = some day then cursor else plan.startMin

/-- The cursor after a visit: travel and buffer only count towards a stop of
    the same day. -/
def DayPlan.cursorAfter (plan : DayPlan) (pid day visitEnd : Int) (next : Option Int) : Int :=
  match next.bind plan.placeOf with
  | some p => if p.day = day then visitEnd + plan.travel pid + plan.bufferMin else visitEnd
  | none => visitEnd

/-- The slot of a place whose visit starts at a minute of the day. -/
def DayPlan.slot (plan : DayPlan) (pid start : Int) : Slot where
  stayMinutes := plan.stay pid
  visitStart := minutesToHhmm start
  visitEnd := minutesToHhmm (start + plan.stay pid)

/-- One visit entered into the layout. -/
def DayPlan.visit (plan : DayPlan) (pid day start : Int) (out : Layout) : Layout where
  timeline := dictSet out.timeline pid (plan.slot pid start)
  overflowed :=
    if plan.endMin < start + plan.stay pid ∧ day ∉ out.overflowed then out.overflowed ++ [day]
    else out.overflowed

/-- The loop of `_plan_timeline`. -/
def DayPlan.layOut (plan : DayPlan) (cursor : Int) (currentDay : Option Int) (out : Layout) :
    List Int → Layout
  | [] => out
  | pid :: rest =>
    match plan.placeOf pid with
    | none => plan.layOut cursor currentDay out rest
    | some place =>
      let start := plan.startOf cursor currentDay place.day
      plan.layOut (plan.cursorAfter pid place.day (start + plan.stay pid) rest.head?)
        (some place.day) (plan.visit pid place.day start out) rest

/-- What a day's layout reads off the state; a negative buffer counts as none. -/
def dayPlan (settings : Settings) (s : AgentState) (stay : Int → Int) : DayPlan where
  placeOf := s.placeById
  travel := legMinutes (s.legs.getD []) (s.visitOrder.getD [])
  stay := stay
  startMin := s.request.date.timeStart.minuteOfDay
  endMin := s.request.date.timeEnd.minuteOfDay
  bufferMin := max 0 settings.timelineBufferMinutes

/-- `_plan_timeline`. -/
def planTimeline (settings : Settings) (s : AgentState) (stay : Int → Int) : Layout :=
  let plan := dayPlan settings s stay
  plan.layOut plan.startMin none {} (s.visitOrder.getD [])

/-! ### build_timeline -/

/-- The key a place goes by in the dwell request: its source identifier, or one
    made of its number. -/
def dwellKey (p : Place) : String :=
  match p.contentId with
  | some cid => if cid = "" then "pid:" ++ toString p.placeId else cid
  | none => "pid:" ++ toString p.placeId

/-- `_dwell_request`. -/
def dwellRequest (places : List Place) : List Json :=
  places.map fun p => .obj [
    ("content_id", .str (dwellKey p)),
    ("category_group_code", p.categoryGroupCode.elim .null .str),
    ("course_minutes", p.crsTotalMin.elim .null .int)]

/-- What the hub estimates for one place. -/
structure Dwell where
  placeId : Int
  stayMinutes : Int
  source : String
deriving DecidableEq, Repr

/-- The `by_key` of `build_timeline`. -/
def estimatesByKey (resp : Json) : Except PyExn (List (PyKey × List (String × Json))) := do
  let entries ← ((← resp.get "estimates").orElse (.arr [])).iter
  (entries.filterMap fun
    -- an entry that is no dictionary is passed over
    | .obj e => some e
    | _ => none).mapM fun e => do return (← (dictGet e "content_id").key, e)

/-- The estimate of one place: missing values read as 0 minutes by default. -/
def dwellOf (pf : Platform) (byKey : List (PyKey × List (String × Json))) (p : Place) :
    Except PyExn Dwell := do
  let est := ((keyedBy (·.1) byKey (.str (dwellKey p))).map (·.2)).getD []
  let stay ← pyInt pf ((dictGet est "stay_minutes").orElse (.int 0))
  return ⟨p.placeId, stay, pyStr pf ((dictGet est "source").orElse (.str "default"))⟩

/-- The `stay_by_id` and `source_by_id` of `build_timeline`. -/
def dwellEstimates (pf : Platform) (places : List Place) (resp : Json) :
    Except PyExn (List Dwell) := do
  let byKey ← estimatesByKey resp
  places.mapM (dwellOf pf byKey)

/-- The estimated stay of a place, none without an estimate. -/
def stayOf (dwells : List Dwell) (pid : Int) : Int :=
  (keyedBy (·.placeId) dwells pid).elim 0 (·.stayMinutes)

/-- Where the estimate of a place comes from. -/
def staySourceOf (dwells : List Dwell) (pid : Int) : String :=
  (keyedBy (·.placeId) dwells pid).elim "default" (·.source)

/-- Every slot with the source of its stay. -/
def withSources (source : Int → String) (timeline : List (Int × Slot)) : List (Int × Slot) :=
  timeline.map fun (pid, slot) => (pid, { slot with staySource := some (source pid) })

/-- The limits that are told whether or not the computation succeeds. -/
def timelineWarnings (s : AgentState) : AgentState :=
  let s := s.addWarning warnNoOpeningHours
  if s.request.mobility = some .car ∨ s.request.mobility = some .transit then
    s.addWarning warnTravelEstimated
  else s

/-- A hub that does not answer leaves the order without visit times. -/
def buildTimeline (env : Env) (s : AgentState) : Except PyExn AgentState :=
  let places := s.places.getD []
  if s.failed then .ok s
  else if env.settings.timelineEnabled = false ∨ places = [] then .ok s
  else
    -- the warnings stand even if the hub does not answer
    let s := timelineWarnings s
    match env.hub.estimateDwell (dwellRequest places) with
    | .error e =>
      if e.isHttpError || e.isValueError then
        .ok { s with timelineStatus := some .unverified }
      else .error e
    | .ok resp => do
      -- estimates that cannot be read raise past the handler
      let dwells ← dwellEstimates env.platform places resp
      let layout := planTimeline env.settings s (stayOf dwells)
      return { s with
        timeline := some (withSources (staySourceOf dwells) layout.timeline)
        timelineStatus := some .ok
        timelineOverflowDays :=
          if layout.overflowed = [] then s.timelineOverflowDays else some layout.overflowed }

/-! ### fit_time_budget -/

/-- `floor_min`. -/
def floorMin : Int := 10

/-- `keep_min`. -/
def keepMin : Nat := 2

/-- The state `_plan_timeline_with` computes on. -/
def probeState (pf : Platform) (s : AgentState) (order dropped : List Int) :
    Except PyExn AgentState := do
  let order := order.filter (· ∉ dropped)
  let legs ← rebuildLegs pf s order
  return { s with
    places := some ((s.places.getD []).filter fun p => p.placeId ∉ dropped)
    visitOrder := some order
    legs := some legs }

/-- `_plan_timeline_with`. -/
def planTimelineWith (env : Env) (s : AgentState) (stay : Int → Int) (order dropped : List Int) :
    Except PyExn Layout := do
  return planTimeline env.settings (← probeState env.platform s order dropped) stay

/-- The stays with those of a day cut to the floor. -/
def floorStays (dayOrder : List Int) (stay : Int → Int) : Int → Int := fun pid =>
  if pid ∈ dayOrder ∧ floorMin < stay pid then floorMin else stay pid

/-- The last stop of a day that is not pinned. -/
def lastUnpinned (s : AgentState) (dayOrder : List Int) : Option Int :=
  dayOrder.reverse.find? fun pid =>
    ((s.placeById pid).bind (·.contentId)).all (· ∉ s.pinnedContentIds.getD [])

/-- The inner loop of `fit_time_budget` over one day. -/
def trimDay (env : Env) (s : AgentState) (order : List Int) (day : Int) :
    (rounds : Nat) → (dayOrder : List Int) → (stay : Int → Int) → (dropped : List Int) →
      Except PyExn ((Int → Int) × List Int)
  | 0, _, stay, dropped => .ok (stay, dropped)
  | rounds + 1, dayOrder, stay, dropped => do
    -- every stay of the day is cut first, whether or not that is needed
    let stay := floorStays dayOrder stay
    let trial ← planTimelineWith env s stay order dropped
    -- a day keeps two stops even if it does not fit
    if day ∉ trial.overflowed ∨ dayOrder.length ≤ keepMin then return (stay, dropped)
    else
      match lastUnpinned s dayOrder with
      -- all that is left is pinned
      | none => return (stay, dropped)
      | some removed =>
        trimDay env s order day rounds (dayOrder.erase removed) stay (removed :: dropped)

/-- The stops of a day that are left. -/
def dayOrderOf (s : AgentState) (order dropped : List Int) (day : Int) : List Int :=
  order.filter fun pid => (s.placeById pid).any (·.day = day) && pid ∉ dropped

/-- The outer loop of `fit_time_budget`. -/
def trimDays (env : Env) (s : AgentState) (order : List Int) :
    List Int → (stay : Int → Int) → (dropped : List Int) → Except PyExn ((Int → Int) × List Int)
  | [], stay, dropped => .ok (stay, dropped)
  | day :: days, stay, dropped =>
    match dayOrderOf s order dropped day with
    -- `del trial_timeline` without a trial
    | [] => .error .nameError
    | dayOrder => do
      let (stay, dropped) ← trimDay env s order day dayOrder.length dayOrder stay dropped
      trimDays env s order days stay dropped

/-- The state with the dropped places taken out. -/
def dropPlaces (pf : Platform) (s : AgentState) (dropped : List Int) :
    Except PyExn AgentState :=
  if dropped = [] then .ok s
  else do
    let order := (s.visitOrder.getD []).filter (· ∉ dropped)
    let s := { s with
      places := some ((s.places.getD []).filter fun p => p.placeId ∉ dropped)
      visitOrder := some order }
    let legs ← rebuildLegs pf s order
    return { s with legs := some legs }

/-- The source of a stay in the timeline so far. -/
def oldStaySource (s : AgentState) (pid : Int) : String :=
  (((s.timeline.getD []).lookup pid).bind (·.staySource)).getD "default"

/-- `fit_time_budget` on a state whose stops may be shortened and dropped. -/
def trimTimeline (env : Env) (s : AgentState) (overflowed : List Int) : Except PyExn AgentState := do
  let order := s.visitOrder.getD []
  let stay := fun pid => ((s.timeline.getD []).lookup pid).elim 0 (·.stayMinutes)
  let (stay, dropped) ← trimDays env s order overflowed stay []
  let s ← dropPlaces env.platform s dropped
  let layout ← planTimelineWith env s stay (order.filter (· ∉ dropped)) dropped
  -- the fixed places alone are too much
  if layout.overflowed ≠ [] then
    return { s with
      timelineStatus := some .unverified
      timelineOverflowDays := some layout.overflowed : AgentState }.fail
        "verified places exceed the activity time budget" "invalid_request"
  else
    return { s with
      timeline := some (withSources (oldStaySource s) layout.timeline)
      timelineStatus := some .trimmed
      timelineOverflowDays := none : AgentState }.addWarning warnTrimmed

/-- What the user has fixed is not dropped: such a trip fails where another is trimmed. -/
def fitTimeBudget (env : Env) (s : AgentState) : Except PyExn AgentState :=
  let overflowed := s.timelineOverflowDays.getD []
  if s.failed then .ok s
  else if env.settings.timelineEnabled = false ∨ overflowed = [] then .ok s
  else if s.request.stage = .route ∨
      (s.request.stage = .mode1 ∧ s.request.given ≠ [] ∧ s.pinnedContentIds = none) then
    -- an order or places the user gave are not shortened behind their back
    .ok (AgentState.fail { s with timelineStatus := some .unverified }
      "selected places exceed the activity time budget" "invalid_request")
  else trimTimeline env s overflowed

end MapServiceAgent.Native

import MapServiceAgent.ForStd.List
import MapServiceAgent.Native.AgentState

/-!
# Input, weather and strategy nodes

`parse_input`, `fetch_weather` and `plan_strategy`. A node returns the new
state, or the exception it raises.
-/

namespace MapServiceAgent.Native

/-! ### parse_input -/

/-- `_MAX_RANGE_DAYS`. -/
def maxRangeDays : Int := 14

/-- `(date_end - date_start).days`. -/
def DateRange.spanDays (d : DateRange) : Int := (d.dateEnd.ordinal : Int) - d.dateStart.ordinal

/-- The days of a trip, the first and the last one counted. -/
def numDays (req : AgentRequest) : Int := req.date.spanDays + 1

/-- `req.places or []`. -/
def AgentRequest.given (req : AgentRequest) : List SelectedPlace := req.places.getD []

/-- The first check that is not met fails the job; a request that meets all passes
    unchanged. -/
def parseInput (s : AgentState) : Except PyExn AgentState :=
  let req := s.request
  let d := req.date
  let days := req.given.map (·.day)
  if d.spanDays < 0 then
    .ok (s.fail "date_start must be <= date_end" "invalid_request")
  else if maxRangeDays < d.spanDays then
    .ok (s.fail "date range must be <= 14 days" "invalid_request")
  else
    match d.timeStart.ge? d.timeEnd with
    -- one time carries an offset and the other does not
    | none => .error .typeError
    | some true => .ok (s.fail "time_start must be < time_end" "invalid_request")
    | some false =>
      -- the remaining checks are of the places, and of a route only
      if days.any (numDays req < ·) then
        .ok (s.fail "selected place day exceeds the date range" "invalid_request")
      else if req.stage = .route ∧ days ≠ sortedBy id days then
        .ok (s.fail "selected places must be in day order" "invalid_request")
      else if req.stage = .route ∧ days = [] then
        .ok (s.fail "stage=route requires places" "invalid_request")
      else if req.stage = .route ∧ days.length < 2 then
        .ok (s.fail "stage=route requires at least 2 places" "invalid_request")
      else .ok s

/-! ### fetch_weather -/

/-- `_WARN_WEATHER_UNAVAILABLE`. -/
def warnWeatherUnavailable : String := "날씨 정보를 확인하지 못해 일정에 반영하지 못했습니다"

/-- The `missing_dates` that fall into the trip, as the hub spelled them. -/
def missingInRange (pf : Platform) (d : DateRange) (missing : List Json) : List String :=
  (missing.map (pyStr pf)).filter fun key =>
    match Date.fromisoformat? key with
    | some parsed => d.dateStart.ordinal ≤ parsed.ordinal && parsed.ordinal ≤ d.dateEnd.ordinal
    -- what is no ISO date cannot be one of the trip's
    | none => false

/-- `_warn_missing_forecast_days`. -/
def warnMissingForecastDays (pf : Platform) (weather : Json) (s : AgentState) : AgentState :=
  match weather with
  | .obj m =>
    match dictGet m "missing_dates" with
    | .arr missing =>
      let hit := missingInRange pf s.request.date missing
      if hit = [] then s
      else s.addWarning (String.intercalate ", " (sortedBy id hit) ++
        " 는 날씨 예보를 확인하지 못해 해당 날짜에 날씨 조건을 반영하지 못했습니다")
    | _ => s
  | _ => s

/-- Without the hub's answer the trip is planned without weather, and says so. -/
def fetchWeather (env : Env) (s : AgentState) : Except PyExn AgentState :=
  if s.failed then .ok s
  else
    let req := s.request
    match env.hub.fetchWeather req.province req.city req.date.dateStart req.date.dateEnd with
    | .ok weather =>
      .ok (warnMissingForecastDays env.platform weather { s with weather := some weather })
    | .error e =>
      -- an answer that does not decode is a `ValueError` and ends the job
      if e.isHttpError then
        .ok (AgentState.addWarning { s with weather := none } warnWeatherUnavailable)
      else .error e

/-! ### plan_strategy -/

/-- A number between 0 and 100 that is no boolean, as `int` of it. -/
def percent? : Json → Option Int
  -- a boolean falls through to the last case
  | .int i => if 0 ≤ i ∧ i ≤ 100 then some i else none
  | .float (.fin q) => if 0 ≤ q ∧ q ≤ 100 then some (truncate q) else none
  | _ => none

/-- The `by_date` of `_daily_pops`. -/
def popsByDate (pf : Platform) (daily : List Json) : List (String × Int) :=
  daily.foldl (fun byDate d =>
    match d with
    | .obj m =>
      let key := pyStr pf ((dictGet m "date").orElse (.str ""))
      match percent? (dictGet m "precipitation_prob") with
      -- of two entries of one date the later counts
      | some pop => if key = "" then byDate else dictSet byDate key pop
      | none => byDate
    | _ => byDate) []

/-- `_daily_pops`: by date, not by position, since the hub leaves out the days
    it has no forecast for. -/
def dailyPops (pf : Platform) (weather : Option Json) (dateStart : Date) (days : Nat) :
    Except PyExn (List (Option Int)) := do
  -- without weather every day is without a forecast
  let byDate ← match weather with
    | some (.obj m) => do
      let daily ← ((dictGet m "daily").orElse (.arr [])).iter
      pure (popsByDate pf daily)
    | _ => pure []
  return (List.range days).map fun i => byDate.lookup (isoOfOrdinal (dateStart.ordinal + i))

/-- `_STOPS_MIN`. -/
def stopsMin : Int := 2

/-- `_STOPS_MAX`. -/
def stopsMax : Int := 5

/-- `_MINUTES_PER_STOP`. -/
def minutesPerStop : Int := 100

/-- `_target_stops`. -/
def targetStops (activeMinutes : Int) : Int :=
  if activeMinutes ≤ 0 then stopsMin
  else max stopsMin (min stopsMax (activeMinutes / minutesPerStop))

/-- `_indoor_ratio`. -/
def indoorRatio : Option Int → ℚ
  -- an unknown probability weighs nothing
  | none => 0
  | some pop => if 70 ≤ pop then 7 / 10 else if 50 ≤ pop then 1 / 2 else if 30 ≤ pop then 3 / 10 else 0

/-- `_pace`. -/
def pace (activeMinutes targetStops : Int) : String :=
  if targetStops ≤ 0 then "relaxed"
  else
    let perStop : ℚ := activeMinutes / targetStops
    if perStop < 90 then "tight" else if 150 < perStop then "relaxed" else "normal"

/-- Minutes between the two ends of the daily activity window. -/
def activeMinutes (req : AgentRequest) : Int :=
  req.date.timeEnd.minuteOfDay - req.date.timeStart.minuteOfDay

/-- The plan `plan_strategy` sets up from the daily probabilities. -/
def planFor (req : AgentRequest) (pops : List (Option Int)) : Plan where
  days := pops.zipIdx.map fun (pop, d) =>
    { day := d + 1, targetStops := targetStops (activeMinutes req)
      indoorRatio := indoorRatio pop, precipitationProb := pop }
  pace := pace (activeMinutes req) (targetStops (activeMinutes req))

/-- One target for each day of the trip, from the forecast by date. -/
def planStrategy (env : Env) (s : AgentState) : Except PyExn AgentState :=
  if s.failed then .ok s
  else do
    let req := s.request
    let pops ← dailyPops env.platform s.weather req.date.dateStart (numDays req).toNat
    return { s with plan := some (planFor req pops) }

/-- No day is planned with less than two stops. -/
theorem two_le_targetStops (m : Int) : 2 ≤ targetStops m := by
  unfold targetStops stopsMin
  split
  · exact le_rfl
  · exact le_max_left _ _

end MapServiceAgent.Native

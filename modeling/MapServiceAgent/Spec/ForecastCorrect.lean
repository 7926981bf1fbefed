import MapServiceAgent.ForStd.Dict
import MapServiceAgent.Spec.AgentGraphCorrect
import MapServiceAgent.Spec.CalendarCorrect
import MapServiceAgent.Spec.InputCorrect

/-!
# The forecast of a trip

The probabilities of the plan are matched by date: a day takes the last entry
that is dated that day and says a percentage, whatever else the forecast holds
and in what order.

## Key results

- `lookup_popsByDate`: the last valid entry of a date counts
- `forecastOn_other_day`: an entry of another day says nothing
- `dayPopMax_plan`: what the hub is told when it scores
- `forecast_by_date`: the plan of a request
-/

namespace MapServiceAgent.Native

variable {env : Env} {pf : Platform} {s s' : AgentState}

/-! ### The forecast of a day -/

/-- What an entry forecasts for the day with this ISO form. -/
def forecastOn (pf : Platform) (iso : String) : Json → Option Int
  | .obj m =>
    if pyStr pf ((dictGet m "date").orElse (.str "")) = iso
    then percent? (dictGet m "precipitation_prob") else none
  | _ => none

/-- The last forecast for a day. -/
def lastForecast (pf : Platform) (daily : List Json) (iso : String) : Option Int :=
  (daily.filterMap (forecastOn pf iso)).getLast?

/-- The last valid entry of a date counts. -/
theorem lookup_popsByDate (pf : Platform) (daily : List Json) {iso : String} (hiso : iso ≠ "") :
    (popsByDate pf daily).lookup iso = lastForecast pf daily iso := by
  unfold popsByDate lastForecast
  rw [lookup_foldl_last (forecastOn pf iso), List.lookup_nil, Option.or_none]
  intro byDate d
  cases d with
  | obj m =>
    unfold forecastOn
    dsimp only
    -- an entry of another date writes under another key, if it writes at all
    by_cases hkey : pyStr pf ((dictGet m "date").orElse (.str "")) = iso
    · rw [hkey, if_pos rfl]
      cases percent? (dictGet m "precipitation_prob") with
      | none => rfl
      | some pop =>
        dsimp only
        -- a later entry of the date overwrites an earlier one
        rw [if_neg hiso, lookup_dictSet_self]
        rfl
    · rw [if_neg hkey]
      cases percent? (dictGet m "precipitation_prob") with
      | none => rfl
      | some pop =>
        dsimp only
        split
        · rfl
        · exact lookup_dictSet_ne (Ne.symm hkey)
  | _ => rfl

/-- An entry that is dated another day says nothing about this one. -/
theorem forecastOn_other_day {d d' : Date} (hne : d ≠ d') {m : List (String × Json)}
    (hdate : dictGet m "date" = .str d'.isoformat) :
    forecastOn pf d.isoformat (.obj m) = none := by
  have htruthy : (Json.str d'.isoformat).truthy = true := by
    simpa [Json.truthy] using isoformat_ne_empty d'
  unfold forecastOn
  dsimp only
  rw [hdate, Json.orElse, if_pos htruthy, if_neg]
  exact fun h => hne (isoformat_inj h).symm

/-- The forecast of a day depends on its valid entries only. -/
theorem lastForecast_congr {daily daily' : List Json} {iso : String}
    (h : daily.filter (fun e => (forecastOn pf iso e).isSome) =
      daily'.filter (fun e => (forecastOn pf iso e).isSome)) :
    lastForecast pf daily iso = lastForecast pf daily' iso := by
  have hvalid : ∀ l : List Json, l.filterMap (forecastOn pf iso) =
      (l.filter fun e => (forecastOn pf iso e).isSome).filterMap (forecastOn pf iso) := by
    intro l
    rw [List.filterMap_filter]
    refine List.filterMap_congr fun e _ => ?_
    cases forecastOn pf iso e <;> rfl
  unfold lastForecast
  rw [hvalid daily, hvalid daily', h]

/-- A forecast that is kept is from 0 to 100. -/
theorem percent?_bounds {v : Json} {pop : Int} (h : percent? v = some pop) :
    0 ≤ pop ∧ pop ≤ 100 := by
  unfold percent? at h
  split at h
  · split at h
    · -- an integer between the bounds is kept as it is
      rename_i hbounds
      cases h
      exact hbounds
    · cases h
  · -- a number between the bounds keeps them when its fraction is cut off
    rename_i q
    split at h
    · rename_i hbounds
      cases h
      unfold truncate
      rw [if_pos hbounds.1]
      constructor
      · exact Rat.le_floor_iff.mpr (by exact_mod_cast hbounds.1)
      · exact (Rat.floor_monotone hbounds.2).trans_eq (Rat.floor_intCast 100)
    · cases h
  · cases h

/-- A forecast is a percentage. -/
theorem lastForecast_percent {daily : List Json} {iso : String} {pop : Int}
    (h : lastForecast pf daily iso = some pop) : 0 ≤ pop ∧ pop ≤ 100 := by
  obtain ⟨e, -, he⟩ := List.mem_filterMap.mp (List.mem_of_getLast? h)
  unfold forecastOn at he
  split at he
  · split at he
    · exact percent?_bounds he
    · cases he
  · cases he

/-! ### The plan -/

/-- The ISO form of a day of the trip, from 0. -/
def tripDay (req : AgentRequest) (i : Nat) : String :=
  isoOfOrdinal (req.date.dateStart.ordinal + i)

/-- A day of the trip is a day of the calendar. -/
theorem tripDay_eq {req : AgentRequest} {i : Nat} (hi : i < (numDays req).toNat) :
    ∃ d : Date, d.ordinal = req.date.dateStart.ordinal + i ∧
      d.ordinal ≤ req.date.dateEnd.ordinal ∧ tripDay req i = d.isoformat := by
  have hle : req.date.dateStart.ordinal + i ≤ req.date.dateEnd.ordinal := by
    unfold numDays DateRange.spanDays at hi
    omega
  have hstart := req.date.dateStart.one_le
  have hend := req.date.dateEnd.le_max
  exact ⟨⟨req.date.dateStart.ordinal + i, by omega, by omega⟩, rfl, hle, rfl⟩

/-- The forecasts of the days of a trip. -/
def tripForecasts (pf : Platform) (req : AgentRequest) (daily : List Json) : List (Option Int) :=
  (List.range (numDays req).toNat).map fun i => lastForecast pf daily (tripDay req i)

/-- With a list of daily forecasts the days are planned by them. -/
theorem planStrategy_daily {m : List (String × Json)} {daily : List Json} (hs : s.failed = false)
    (hweather : s.weather = some (.obj m)) (hdaily : dictGet m "daily" = .arr daily) :
    planStrategy env s =
      .ok { s with plan := some (planFor s.request (tripForecasts env.platform s.request daily)) } := by
  -- the node looks each day of the trip up by its ISO date
  have hpops : dailyPops env.platform s.weather s.request.date.dateStart
      (numDays s.request).toNat = .ok (tripForecasts env.platform s.request daily) := by
    unfold dailyPops
    rw [hweather]
    dsimp only
    rw [hdaily, Json.iter_orElse_arr]
    unfold tripForecasts
    refine congrArg Except.ok (List.map_congr_left fun i hi => ?_)
    obtain ⟨d, hd, -, hiso⟩ := tripDay_eq (List.mem_range.mp hi)
    rw [hiso, ← lookup_popsByDate _ _ (isoformat_ne_empty d), Date.isoformat, hd]
  unfold planStrategy
  rw [if_neg (by simp [hs])]
  dsimp only
  rw [bind_of_eq_ok hpops]
  rfl

/-- The plan has the days of the trip in order, each with its forecast. -/
structure ForecastPlan (pf : Platform) (req : AgentRequest) (daily : List Json) (plan : Plan) :
    Prop where
  length_eq : plan.days.length = (numDays req).toNat
  days_eq : ∀ (i : Nat) (day : PlanDay), plan.days[i]? = some day →
    day.day = i + 1 ∧ day.precipitationProb = lastForecast pf daily (tripDay req i)

/-- The plan of a day is made from its own forecast. -/
theorem planFor_getElem? (req : AgentRequest) (pops : List (Option Int)) (i : Nat) :
    (planFor req pops).days[i]? = pops[i]?.map fun pop =>
      { day := i + 1, targetStops := targetStops (activeMinutes req)
        indoorRatio := indoorRatio pop, precipitationProb := pop } := by
  unfold planFor
  rw [List.getElem?_map, List.getElem?_zipIdx, Option.map_map, Nat.zero_add]
  rfl

/-- The plan by a list of forecasts is a plan by forecast. -/
theorem planFor_forecast (pf : Platform) (req : AgentRequest) (daily : List Json) :
    ForecastPlan pf req daily (planFor req (tripForecasts pf req daily)) := by
  constructor
  · simp [planFor, tripForecasts]
  · intro i day hday
    -- the day's forecast is the last one for its date
    rw [planFor_getElem?] at hday
    obtain ⟨pop, hpop, rfl⟩ := Option.map_eq_some_iff.mp hday
    unfold tripForecasts at hpop
    rw [List.getElem?_map] at hpop
    obtain ⟨d, hd, rfl⟩ := Option.map_eq_some_iff.mp hpop
    obtain ⟨hi, rfl⟩ := List.getElem?_eq_some_iff.mp hd
    rw [List.getElem_range]
    exact ⟨rfl, rfl⟩

/-- The days whose forecasts agree are planned alike. -/
theorem planFor_congr {req : AgentRequest} {daily daily' : List Json} {i : Nat}
    (h : lastForecast pf daily (tripDay req i) = lastForecast pf daily' (tripDay req i)) :
    (planFor req (tripForecasts pf req daily)).days[i]? =
      (planFor req (tripForecasts pf req daily')).days[i]? := by
  have hpop : (tripForecasts pf req daily)[i]? = (tripForecasts pf req daily')[i]? := by
    unfold tripForecasts
    rw [List.getElem?_map, List.getElem?_map]
    cases hi : (List.range (numDays req).toNat)[i]? with
    | none => rfl
    | some d =>
      obtain ⟨hlt, rfl⟩ := List.getElem?_eq_some_iff.mp hi
      rw [List.getElem_range, Option.map_some, Option.map_some, h]
  rw [planFor_getElem?, planFor_getElem?, hpop]

/-! ### What the hub is told -/

/-- Of two integers the larger one is sent. -/
theorem maxNumber_int (a b : Int) : maxNumber (.int a) (.int b) = .int (max a b) := by
  have hlt : (PyFloat.fin a < PyFloat.fin b) ↔ a < b :=
    (PyFloat.fin_lt_fin _ _).trans Int.cast_lt
  show (if PyFloat.fin a < PyFloat.fin b then Json.int b else Json.int a) = .int (max a b)
  by_cases h : a < b
  · rw [if_pos (hlt.mpr h), max_eq_right h.le]
  · rw [if_neg (mt hlt.mp h), max_eq_left (not_lt.mp h)]

/-- Of some integers the largest one is sent. -/
theorem maxNumbers_int (pops : List Int) : maxNumbers (pops.map Json.int) = pops.max?.map Json.int := by
  cases pops with
  | nil => rfl
  | cons pop pops =>
    rw [List.map_cons, maxNumbers, List.max?_cons', Option.map_some]
    -- by induction on the rest, with the largest so far
    congr 1
    induction pops generalizing pop with
    | nil => rfl
    | cons pop' pops ih => rw [List.map_cons, List.foldl_cons, List.foldl_cons, maxNumber_int, ih]

/-- An integer from 0 to 100 is a percentage. -/
theorem isPercent_int {pop : Int} (h : 0 ≤ pop ∧ pop ≤ 100) : isPercent (.int pop) = true := by
  have hzero : (0 : PyFloat) ≤ .fin pop :=
    (PyFloat.fin_le_fin _ _).mpr (by exact_mod_cast h.1)
  have hhundred : PyFloat.fin pop ≤ 100 :=
    (PyFloat.fin_le_fin _ _).mpr (by exact_mod_cast h.2)
  unfold isPercent Json.num? Json.isBool
  simp [hzero, hhundred]

/-- The hub is told the largest of the known probabilities of the plan. -/
theorem dayPopMax_plan {plan : Plan} (hplan : s.plan = some plan) (hne : plan.days ≠ [])
    (hpercent : ∀ day ∈ plan.days, ∀ pop ∈ day.precipitationProb, 0 ≤ pop ∧ pop ≤ 100) :
    dayPopMax s = .ok ((plan.days.filterMap (·.precipitationProb)).max?.map Json.int) := by
  unfold dayPopMax
  rw [hplan]
  dsimp only [Option.map_some, Option.getD_some]
  split
  · rename_i hnil
    exact absurd hnil hne
  · rw [← maxNumbers_int, List.map_filterMap]
    refine congrArg (fun l => Except.ok (maxNumbers l)) (List.filterMap_congr fun day hday => ?_)
    cases hpop : day.precipitationProb with
    | none => rfl
    | some pop =>
      dsimp only
      -- a probability of a day is a percentage
      rw [if_pos (isPercent_int (hpercent day hday pop hpop))]
      rfl

/-- The node asks for that probability and for no other. -/
theorem scoreAndRank_asks {popMax : Option Json} (hpop : dayPopMax s = .ok popMax) (hub : Hub)
    (hsame : ∀ pois, hub.scoreIndoorBonus pois popMax = env.hub.scoreIndoorBonus pois popMax) :
    scoreAndRank { env with hub := hub } s = scoreAndRank env s := by
  have hpois : poisOf { env with hub := hub } s.request (s.candidates.getD []) =
      poisOf env s.request (s.candidates.getD []) := rfl
  unfold scoreAndRank
  dsimp only
  rw [bind_of_eq_ok hpop, bind_of_eq_ok hpop, hpois]
  simp only [hsame]

/-! ### The plan of a request -/

/-- The plan keeps the forecasts it was made by. -/
theorem map_planFor_days (req : AgentRequest) (pops : List (Option Int)) :
    (planFor req pops).days.map (·.precipitationProb) = pops := by
  unfold planFor
  rw [List.map_map]
  exact List.zipIdx_map_fst ..

/-- What the hub is told about a plan. -/
theorem dayPopMax_planFor {req : AgentRequest} {daily : List Json}
    (hplan : s.plan = some (planFor req (tripForecasts pf req daily))) (hreq : 1 ≤ numDays req) :
    dayPopMax s = .ok (((List.range (numDays req).toNat).filterMap fun i =>
      lastForecast pf daily (tripDay req i)).max?.map Json.int) := by
  have hplanned := planFor_forecast pf req daily
  have hpops : (planFor req (tripForecasts pf req daily)).days.filterMap (·.precipitationProb) =
      (List.range (numDays req).toNat).filterMap fun i => lastForecast pf daily (tripDay req i) := by
    calc (planFor req (tripForecasts pf req daily)).days.filterMap (·.precipitationProb)
      _ = ((planFor req (tripForecasts pf req daily)).days.map (·.precipitationProb)).filterMap id := by
        rw [List.filterMap_map]
        rfl
      _ = (tripForecasts pf req daily).filterMap id := by rw [map_planFor_days]
      _ = _ := by
        unfold tripForecasts
        rw [List.filterMap_map]
        rfl
  rw [dayPopMax_plan hplan, hpops]
  · -- a trip has a day
    intro hnil
    have hlen := hplanned.length_eq
    rw [hnil, List.length_nil] at hlen
    omega
  · -- and its forecasts are percentages
    intro day hday pop hpop
    obtain ⟨i, hi⟩ := List.mem_iff_getElem?.mp hday
    rw [(hplanned.days_eq i day hi).2] at hpop
    exact lastForecast_percent hpop

/-- A forecast of the hub for one day. -/
def sampleEntry (date : String) (pop : Json) : Json :=
  .obj [("date", .str date), ("precipitation_prob", pop)]

/-- The next day, the day of the trip, and that day once more without a value. -/
def mixedDaily : List Json :=
  [sampleEntry "2026-07-07" (.int 90), sampleEntry "2026-07-06" (.int 40),
    sampleEntry "2026-07-06" .null]

end MapServiceAgent.Native

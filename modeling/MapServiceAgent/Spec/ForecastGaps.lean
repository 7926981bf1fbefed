import MapServiceAgent.Spec.ForecastCorrect

/-!
# Gaps in the forecast

Which days of a trip have no forecast the plan decides from the daily entries,
the warning from the hub's `missing_dates`. A gap is disclosed if and only if
the hub lists it, spelled as its ISO date.

## Key results

- `names_iff`: which days a warning names
- `warnMissing_discloses_iff`: which days the warnings disclose
- `gaps_disclosed_iff`: when every gap is disclosed
-/

namespace MapServiceAgent.Native

variable {env : Env} {pf : Platform} {s s' : AgentState}

/-! ### The warning -/

/-- What follows the dates of the warning. -/
def missingTail : String := " 는 날씨 예보를 확인하지 못해 해당 날짜에 날씨 조건을 반영하지 못했습니다"

/-- The warning about some dates. -/
def missingWarning (hit : List String) : String :=
  String.intercalate ", " (sortedBy id hit) ++ missingTail

/-- The words after the dates take 42 characters. -/
theorem length_missingTail : missingTail.toList.length = 42 := by simp [missingTail]

/-- No part of a date is in the tail. -/
theorem missingTail_foreign : ∀ c ∈ missingTail.toList, (c.isDigit || c == '-') = false := by
  unfold missingTail
  simp

/-- A warning names a day if its ISO date is among those it is about. -/
theorem names_iff {hit : List String} (hlen : ∀ key ∈ hit, key.toList.length ≤ 10) (d : Date) :
    hasSubstring d.isoformat (missingWarning hit) = true ↔ d.isoformat ∈ hit := by
  have hne : d.isoformat.toList ≠ [] := by
    intro hnil
    have := length_isoformat d
    rw [hnil] at this
    cases this
  -- what has neither digits nor hyphens shares no character with a date
  have hforeign : ∀ t : String, (∀ c ∈ t.toList, (c.isDigit || c == '-') = false) →
      ∀ c ∈ t.toList, c ∉ d.isoformat.toList := by
    intro t ht c hc hmem
    exact Bool.false_ne_true ((ht c hc).symm.trans (only_isoformat d c hmem))
  -- a key is too short to hold the date and more
  have hkey : ∀ key : String, key.toList.length ≤ 10 →
      (d.isoformat.toList <:+: key.toList ↔ d.isoformat = key) := by
    intro key hkey
    constructor
    · intro hin
      have hlen := length_isoformat d
      exact String.toList_inj.mp (hin.eq_of_length_le (by omega))
    · rintro rfl
      exact List.infix_refl _
  have htail_ne : missingTail.toList ≠ [] := by
    apply List.ne_nil_of_length_pos
    rw [length_missingTail]
    decide
  -- no date reaches into the rest of the message
  have htail : ∀ joined : List Char, d.isoformat.toList <:+: joined ++ missingTail.toList ↔
      d.isoformat.toList <:+: joined := by
    intro joined
    constructor
    · intro hin
      rw [← List.append_nil (joined ++ _)] at hin
      rcases infix_of_append hne htail_ne (hforeign _ missingTail_foreign) hin with hin | hnil
      · exact hin
      · exact absurd (List.eq_nil_of_infix_nil hnil) hne
    · intro hin
      exact hin.trans (List.prefix_append _ _).isInfix
  unfold hasSubstring missingWarning
  have hsep : ∀ c ∈ ", ".toList, (c.isDigit || c == '-') = false := by simp
  rw [occursIn_iff, String.toList_append, String.toList_intercalate, htail,
    infix_intercalate_iff hne (by simp) (hforeign ", " hsep)]
  constructor
  · rintro ⟨p, hp, hin⟩
    obtain ⟨key, hmem, rfl⟩ := List.mem_map.mp hp
    rw [mem_sortedBy] at hmem
    rw [(hkey key (hlen key hmem)).mp hin]
    exact hmem
  · intro hmem
    exact ⟨_, List.mem_map_of_mem ((mem_sortedBy ..).mpr hmem), List.infix_refl _⟩

/-- The warning does not say that there was no weather at all. -/
theorem missingWarning_ne (hit : List String) : missingWarning hit ≠ warnWeatherUnavailable := by
  intro h
  have hlen := congrArg (fun w : String => w.toList.length) h
  unfold missingWarning at hlen
  rw [String.toList_append, List.length_append] at hlen
  have htail := length_missingTail
  have hwarn : warnWeatherUnavailable.toList.length = 29 := by simp [warnWeatherUnavailable]
  omega

/-! ### The dates the hub lists -/

/-- The hub lists a day as missing. -/
def Reported (pf : Platform) (m : List (String × Json)) (iso : String) : Prop :=
  ∃ missing, dictGet m "missing_dates" = .arr missing ∧ iso ∈ missing.map (pyStr pf)

/-- A date that is written down has at most ten characters. -/
theorem length_of_mem_missingInRange {dates : DateRange} {missing : List Json} {key : String}
    (h : key ∈ missingInRange pf dates missing) : key.toList.length ≤ 10 := by
  unfold missingInRange at h
  have hparsed := (List.mem_filter.mp h).2
  split at hparsed
  · rename_i parsed hkey
    exact length_of_fromisoformat hkey
  · cases hparsed

/-- A day of the trip is warned of if the hub lists it by its ISO date. -/
theorem isoformat_mem_missingInRange (pf : Platform) {dates : DateRange} (missing : List Json)
    {d : Date} (hstart : dates.dateStart.ordinal ≤ d.ordinal) (hend : d.ordinal ≤ dates.dateEnd.ordinal) :
    d.isoformat ∈ missingInRange pf dates missing ↔ d.isoformat ∈ missing.map (pyStr pf) := by
  unfold missingInRange
  rw [List.mem_filter, fromisoformat_isoformat]
  simp [hstart, hend]

/-! ### What is disclosed -/

/-- The warnings tell of a gap: one names the day, or says that the weather could
    not be checked. -/
def Disclosed (s : AgentState) (iso : String) : Prop :=
  ∃ w ∈ s.warnings.getD [], hasSubstring iso w = true ∨ w = warnWeatherUnavailable

/-- Without warnings nothing is disclosed. -/
theorem not_disclosed (h : s.warnings = none) (iso : String) : ¬ Disclosed s iso := by
  rintro ⟨w, hw, -⟩
  rw [h] at hw
  cases hw

/-- The warning about missing days changes nothing but the warnings. -/
theorem warnMissingForecastDays_frame (pf : Platform) (weather : Json) (s : AgentState) :
    warnMissingForecastDays pf weather s =
      { s with warnings := (warnMissingForecastDays pf weather s).warnings } := by
  unfold warnMissingForecastDays
  dsimp only
  repeat' split
  all_goals rfl

/-- The first warning stands alone. -/
theorem warnings_addWarning (h : s.warnings = none) (message : String) :
    (s.addWarning message).warnings = some [message] := by
  unfold AgentState.addWarning
  rw [h]
  rfl

/-- Of a job without warnings the warning discloses the days the hub lists. -/
theorem warnMissing_discloses_iff {m : List (String × Json)} {d : Date} (hnone : s.warnings = none)
    (hstart : s.request.date.dateStart.ordinal ≤ d.ordinal)
    (hend : d.ordinal ≤ s.request.date.dateEnd.ordinal) :
    Disclosed (warnMissingForecastDays pf (.obj m) s) d.isoformat ↔
      Reported pf m d.isoformat := by
  unfold warnMissingForecastDays Reported
  dsimp only
  cases hmissing : dictGet m "missing_dates" with
  | arr missing =>
    have hmem := isoformat_mem_missingInRange pf missing hstart hend
    dsimp only
    split
    · -- no listed day falls into the trip, so nothing is said
      rename_i hnil
      rw [hnil] at hmem
      constructor
      · intro h
        exact absurd h (not_disclosed hnone _)
      · rintro ⟨l, hl, hd⟩
        cases hl
        exact absurd (hmem.mpr hd) List.not_mem_nil
    · show Disclosed (s.addWarning (missingWarning (missingInRange pf s.request.date missing)))
        d.isoformat ↔ _
      have hwarned := warnings_addWarning hnone
        (missingWarning (missingInRange pf s.request.date missing))
      unfold Disclosed
      rw [hwarned, Option.getD_some]
      constructor
      · -- the one warning there is names the day
        rintro ⟨w, hw, hsays⟩
        cases List.mem_singleton.mp hw
        refine ⟨missing, rfl, hmem.mp ?_⟩
        rcases hsays with hnames | hunavailable
        · exact (names_iff (fun _ => length_of_mem_missingInRange) d).mp hnames
        · exact absurd hunavailable (missingWarning_ne _)
      · rintro ⟨l, hl, hd⟩
        cases hl
        exact ⟨_, List.mem_singleton_self _, Or.inl
          ((names_iff (fun _ => length_of_mem_missingInRange) d).mpr (hmem.mpr hd))⟩
  | _ =>
    -- `missing_dates` is no list: no warning
    constructor
    · intro h
      exact absurd h (not_disclosed hnone _)
    · rintro ⟨l, hl, -⟩
      cases hl

/-! ### The gaps of the plan -/

/-- Some valid entry forecasts a day. -/
def Forecasted (pf : Platform) (daily : List Json) (iso : String) : Prop :=
  ∃ e ∈ daily, (forecastOn pf iso e).isSome

/-- A date has no forecast when no entry is one for it. -/
theorem lastForecast_eq_none_iff {daily : List Json} {iso : String} :
    lastForecast pf daily iso = none ↔ ¬ Forecasted pf daily iso := by
  unfold lastForecast Forecasted
  rw [List.getLast?_eq_none_iff, List.filterMap_eq_nil_iff]
  push Not
  exact forall₂_congr fun e _ => by rw [ne_eq, Option.not_isSome_iff_eq_none]

/-- The planned days without a probability are the days nothing forecasts. -/
theorem ForecastPlan.unknown_iff {req : AgentRequest} {daily : List Json} {plan : Plan}
    (h : ForecastPlan pf req daily plan) (P : Nat → Prop) :
    (∀ (i : Nat) (day : PlanDay), plan.days[i]? = some day → day.precipitationProb = none → P i) ↔
      ∀ i < (numDays req).toNat, Forecasted pf daily (tripDay req i) ∨ P i := by
  constructor
  · intro hall i hi
    by_cases hforecast : Forecasted pf daily (tripDay req i)
    · exact Or.inl hforecast
    · rw [← h.length_eq] at hi
      have hday := List.getElem?_eq_getElem hi
      -- a day without a forecast has no probability
      exact Or.inr (hall i _ hday
        ((h.days_eq i _ hday).2.trans (lastForecast_eq_none_iff.mpr hforecast)))
  · intro hall i day hday hnone
    have hi := (List.getElem?_eq_some_iff.mp hday).1
    rw [h.length_eq] at hi
    rw [(h.days_eq i day hday).2, lastForecast_eq_none_iff] at hnone
    exact (hall i hi).resolve_left hnone

/-- Whatever the hub's forecast, each day the plan has no probability for is
    disclosed if and only if the hub itself lists every such day as missing, by
    its ISO date. -/
theorem gaps_disclosed_iff (env : Env) (jobId : String) (req : AgentRequest) (s : AgentState)
    (hparse : parseInput (Job.start jobId req).state = .ok s) (hok : s.failed = false)
    (m : List (String × Json)) (daily : List Json)
    (hhub : env.hub.fetchWeather req.province req.city req.date.dateStart req.date.dateEnd =
      .ok (.obj m))
    (hdaily : dictGet m "daily" = .arr daily) :
    ∃ s₁ s₂ plan, fetchWeather env s = .ok s₁ ∧ planStrategy env s₁ = .ok s₂ ∧
      s₂.plan = some plan ∧
      ((∀ (i : Nat) (day : PlanDay), plan.days[i]? = some day → day.precipitationProb = none →
          Disclosed s₂ (tripDay req i)) ↔
        ∀ i < (numDays req).toNat, Forecasted env.platform daily (tripDay req i) ∨
          Reported env.platform m (tripDay req i)) := by
  obtain ⟨hs, -⟩ := parseInput_ok hparse hok
  have hnone : s.warnings = none := (congrArg AgentState.warnings hs).trans rfl
  obtain rfl : s.request = req := by
    rw [hs]
    rfl
  -- the hub answered, so only the listed gaps are warned of
  have hfetch : fetchWeather env s = .ok
      (warnMissingForecastDays env.platform (.obj m) { s with weather := some (.obj m) }) := by
    unfold fetchWeather
    rw [if_neg (by simp [hok])]
    dsimp only
    rw [hhub]
  have hframe := warnMissingForecastDays_frame env.platform (.obj m)
    { s with weather := some (.obj m) }
  generalize hs₁ : warnMissingForecastDays env.platform (.obj m)
    { s with weather := some (.obj m) } = s₁ at hfetch hframe
  have hplan : planStrategy env s₁ = _ :=
    planStrategy_daily (by rw [hframe]; exact hok) (by rw [hframe]) hdaily
  have hreq : s₁.request = s.request := by rw [hframe]
  rw [hreq] at hplan
  refine ⟨s₁, _, _, hfetch, hplan, rfl, ?_⟩
  -- a day is unknown if no entry forecasts it
  rw [(planFor_forecast env.platform s.request daily).unknown_iff]
  refine forall₂_congr fun i hi => or_congr_right ?_
  obtain ⟨d, hd, hle, hiso⟩ := tripDay_eq hi
  rw [hiso, ← hs₁]
  exact warnMissing_discloses_iff hnone (hd ▸ Nat.le_add_right _ _) hle

/-- A hub that answers with this forecast. -/
def forecastEnv (m : List (String × Json)) : Env :=
  { sampleEnv with hub := { sampleHub with fetchWeather := fun _ _ _ _ => .ok (.obj m) } }

/-- A day whose probability is null, listed as missing. -/
def listedGap : List (String × Json) :=
  [("daily", .arr [sampleEntry "2026-07-06" .null]), ("missing_dates", .arr [.str "2026-07-06"])]

/-- The one day of the sample trip has no forecast, and the warning says so. -/
theorem gaps_disclosed_sample : ∃ s₁ s₂ plan,
    fetchWeather (forecastEnv listedGap) (Job.start "j" (sampleTrip .init)).state = .ok s₁ ∧
      planStrategy (forecastEnv listedGap) s₁ = .ok s₂ ∧ s₂.plan = some plan ∧
      ∀ (i : Nat) (day : PlanDay), plan.days[i]? = some day → day.precipitationProb = none →
        Disclosed s₂ (tripDay (sampleTrip .init) i) := by
  obtain ⟨s₁, s₂, plan, hfetch, hplan, hs₂, hiff⟩ := gaps_disclosed_iff (forecastEnv listedGap) "j"
    (sampleTrip .init) _ rfl rfl listedGap _ rfl rfl
  refine ⟨s₁, s₂, plan, hfetch, hplan, hs₂, hiff.mpr fun i hi => Or.inr ⟨_, rfl, ?_⟩⟩
  obtain rfl : i = 0 := by
    have hone : (numDays (sampleTrip .init)).toNat = 1 := rfl
    omega
  decide

/-- A day whose probability is null, and nothing listed. -/
def silentGap : List (String × Json) :=
  [("daily", .arr [sampleEntry "2026-07-06" .null]), ("missing_dates", .arr [])]

/-- The day is planned without a probability, and no warning tells of it. -/
theorem gap_silent : ∃ s₁ s₂ plan day,
    fetchWeather (forecastEnv silentGap) (Job.start "j" (sampleTrip .init)).state = .ok s₁ ∧
      planStrategy (forecastEnv silentGap) s₁ = .ok s₂ ∧ s₂.plan = some plan ∧
      plan.days[0]? = some day ∧ day.precipitationProb = none ∧
      ¬ Disclosed s₂ (tripDay (sampleTrip .init) 0) := by
  refine ⟨_, _, _, _, rfl, rfl, rfl, rfl, rfl, not_disclosed rfl _⟩

end MapServiceAgent.Native

import MapServiceAgent.Native.SelectionNodes
import MapServiceAgent.Native.TimelineNodes
import MapServiceAgent.Spec.AgentGraphCorrect

/-!
# Steps that only refine

Weather, plan, filter, ranking, reviews and timeline are to degrade where the
hub answers badly, and never to fail the job. Each returns on most answers and
raises on some; the answers it survives are told here step by step.

## Key results

- `fetchWeather_returns_iff`, `planStrategy_returns_iff`,
  `rulesFilter_returns_iff`, `scoreAndRank_returns_iff`,
  `fetchReviewsFor_returns_iff`, `buildTimeline_returns_iff`: what each survives
- `optional_steps_iff`: the six together
- `optional_steps_raise`: an answer each of them raises on
-/

namespace MapServiceAgent.Native

variable {env : Env} {s : AgentState}

/-! ### Values a step can work with -/

/-- `for x in v or []` runs: no number but zero. -/
def Json.loops : Json → Bool
  | .bool b => !b
  | .int i => i == 0
  | .float x => x == 0
  | _ => true

/-- `{v: ..}` can be built: no list and no dictionary. -/
def Json.hashable : Json → Bool
  | .arr _ | .obj _ => false
  | _ => true

/-- `int(v or 0)` is a number. -/
def Json.readsInt (pf : Platform) : Json → Bool
  | .float (.fin _) => true
  | .float _ => false
  | .str t => t == "" || (pf.intOfStr t).isSome
  | .arr l => l.isEmpty
  | .obj m => m.isEmpty
  | _ => true

/-- A value can be gone through when it is falsy or an iterable. -/
theorem loops_iff {v : Json} : v.loops = true ↔ v.truthy = false ∨ Returns v.iter := by
  cases v <;> simp [Json.loops, Json.truthy, Json.iter]

/-- What stands in for a missing value runs too. -/
theorem returns_iter_orElse {v w : Json} (hw : Returns w.iter) :
    Returns (v.orElse w).iter ↔ v.loops = true := by
  rw [loops_iff, Json.orElse]
  cases v.truthy with
  | false => simpa using hw
  | true => simp

/-- With an empty list for a falsy value, going through it raises on nothing else. -/
theorem returns_iter_orElse_arr {v : Json} :
    Returns (v.orElse (.arr [])).iter ↔ v.loops = true :=
  returns_iter_orElse (returns_ok _)

/-- A value can be a key when it is hashable. -/
theorem returns_key {v : Json} : Returns v.key ↔ v.hashable = true := by
  cases v <;> simp [Json.key, Json.hashable]

/-- With 0 for a falsy value, `int` raises on what it cannot read. -/
theorem returns_pyInt {pf : Platform} {v : Json} :
    Returns (pyInt pf (v.orElse (.int 0))) ↔ v.readsInt pf = true := by
  cases v with
  | null => simp [Json.orElse, Json.truthy, pyInt, Json.readsInt]
  | bool b => cases b <;> simp [Json.orElse, Json.truthy, pyInt, Json.readsInt]
  | int i =>
    -- 0 is falsy too, and stands for itself
    by_cases hi : i = 0
    · simp [hi, Json.orElse, Json.truthy, pyInt, Json.readsInt]
    · simp [hi, Json.orElse, Json.truthy, pyInt, Json.readsInt]
  | float x =>
    -- zero is falsy, so the default is read instead
    by_cases hx : x = 0
    · subst hx
      simp [Json.orElse, Json.truthy, pyInt]
      rfl
    · cases x <;> simp [hx, Json.orElse, Json.truthy, pyInt, Json.readsInt]
  | str t =>
    by_cases ht : t = ""
    · simp [ht, Json.orElse, Json.truthy, pyInt, Json.readsInt]
    · cases hread : pf.intOfStr t <;>
        simp [ht, hread, Json.orElse, Json.truthy, pyInt, Json.readsInt]
  | arr l => cases l <;> simp [Json.orElse, Json.truthy, pyInt, Json.readsInt]
  | obj m => cases m <;> simp [Json.orElse, Json.truthy, pyInt, Json.readsInt]

/-! ### Weather and plan -/

/-- An answer of the hub: any JSON value, an HTTP or transport error, or a body
    that does not decode. -/
def HubOutcome (outcome : Except PyExn Json) : Prop :=
  ∀ e, outcome = .error e → e.isHttpError = true ∨ e.isValueError = true

/-- An HTTP error is no value error. -/
theorem isValueError_eq_false_of_isHttpError {e : PyExn} (h : e.isHttpError = true) :
    e.isValueError = false := by
  cases e <;> first | rfl | cases h

/-- `fetch_weather` returns on every answer whose body decodes. -/
theorem fetchWeather_returns_iff (hs : s.failed = false)
    (houtcome : HubOutcome (env.hub.fetchWeather s.request.province s.request.city
      s.request.date.dateStart s.request.date.dateEnd)) :
    Returns (fetchWeather env s) ↔
      ∀ e, env.hub.fetchWeather s.request.province s.request.city s.request.date.dateStart
        s.request.date.dateEnd = .error e → e.isValueError = false := by
  unfold fetchWeather
  rw [if_neg (by simp [hs])]
  dsimp only
  cases hweather : env.hub.fetchWeather s.request.province s.request.city s.request.date.dateStart
      s.request.date.dateEnd with
  | ok weather => simp
  | error e =>
    dsimp only
    simp only [Except.error.injEq, forall_eq']
    -- an answer that does not decode is a `ValueError`, and not caught
    by_cases hhttp : e.isHttpError = true
    · rw [if_pos hhttp]
      exact iff_of_true (returns_ok _) (isValueError_eq_false_of_isHttpError hhttp)
    · rw [if_neg hhttp]
      have hvalue := (houtcome e hweather).resolve_left hhttp
      exact iff_of_false (not_returns_error _) (by rw [hvalue]; decide)

/-- What `plan_strategy` and the ranking run over under `daily`. -/
def dailyLoops (weather : Option Json) : Prop :=
  ∀ m, weather = some (.obj m) → (dictGet m "daily").loops = true

/-- `plan_strategy` returns when the days of the forecast are a list, or at
    least no number. -/
theorem planStrategy_returns_iff (hs : s.failed = false) :
    Returns (planStrategy env s) ↔ dailyLoops s.weather := by
  unfold planStrategy dailyPops dailyLoops
  rw [if_neg (by simp [hs]), returns_bind_of fun _ => returns_pure _]
  cases hw : s.weather with
  | none => simp
  | some weather =>
    cases weather with
    | obj m =>
      -- only the loop over the forecasts can raise
      simp only [Option.some.injEq, Json.obj.injEq, forall_eq']
      rw [← returns_iter_orElse_arr]
      apply returns_bind_of
      intro daily
      exact (returns_bind_of fun _ => returns_pure _).mpr (returns_pure _)
    | _ => simp

/-! ### The filter -/

/-- The mean of numbers: `sum(vs) / n`. -/
def pyMean (vs : List Json) (n : Nat) : Except PyExn PyFloat := do pyDiv (← pySum vs) n

/-- The filter asks the hub: it is on, and there is something to filter by. -/
def asksFilter (env : Env) (s : AgentState) (mobility : Mobility) : Prop :=
  env.settings.rulesEnabled = true ∧ s.candidates.getD [] ≠ [] ∧ s.grounded.getD false = true ∧
    s.request.mobility = some mobility ∧ candidateCoords (s.candidates.getD []) ≠ []

/-- The candidates have a middle, and the hub's answer for it lists its
    candidates under `filtered`, should it be an object. -/
def FilterSurvives (env : Env) (s : AgentState) (mobility : Mobility) : Prop :=
  let coords := candidateCoords (s.candidates.getD [])
  ∃ lat lng, pyMean (coords.map (·.1)) coords.length = .ok lat ∧
    pyMean (coords.map (·.2)) coords.length = .ok lng ∧
    ∀ m, env.hub.filterMobilityRadius lat lng mobility.value (s.candidates.getD []) = .ok (.obj m) →
      (dictGet m "filtered").loops = true

/-- The answer of the filter can be read when what is under `filtered` can be gone
    through. -/
theorem returns_filteredCandidates {resp : Json} :
    Returns (filteredCandidates resp) ↔ ∀ m, resp = .obj m → (dictGet m "filtered").loops = true := by
  cases resp with
  | obj m =>
    simp only [filteredCandidates, Json.obj.injEq, forall_eq']
    rw [← returns_iter_orElse_arr]
    exact returns_bind_of fun _ => returns_pure _
  | _ => simp [filteredCandidates]

/-- The node asks the hub for the middle of the candidates. -/
theorem filterQuery_of_asks {mobility : Mobility} (h : asksFilter env s mobility) :
    filterQuery s = (do
      let lat ← pyMean ((candidateCoords (s.candidates.getD [])).map (·.1))
        (candidateCoords (s.candidates.getD [])).length
      let lng ← pyMean ((candidateCoords (s.candidates.getD [])).map (·.2))
        (candidateCoords (s.candidates.getD [])).length
      return some (lat, lng, mobility.value, s.candidates.getD [])) := by
  obtain ⟨-, hcandidates, hgrounded, hmobility, hcoords⟩ := h
  simp only [filterQuery, pyMean, bind_assoc]
  rw [if_neg (by simp [hcandidates, hgrounded]), hmobility]
  dsimp only
  rw [if_neg hcoords]

/-- Whatever the filter may raise, the node goes on without it. -/
theorem degradesRules_of_outcome {e : PyExn} (h : e.isHttpError = true ∨ e.isValueError = true) :
    degradesRules e = true := by
  rcases h with h | h <;> simp [degradesRules, h]

/-- `rules_filter` returns unless it asks the hub and that goes wrong. -/
theorem rulesFilter_returns_iff (hs : s.failed = false)
    (houtcome : ∀ lat lng mobility candidates,
      HubOutcome (env.hub.filterMobilityRadius lat lng mobility candidates)) :
    Returns (rulesFilter env s) ↔
      ∀ mobility, asksFilter env s mobility → FilterSurvives env s mobility := by
  unfold rulesFilter
  by_cases henabled : env.settings.rulesEnabled = true
  swap
  · rw [if_pos (by simp [henabled])]
    exact iff_of_true (returns_ok _) fun mobility h => absurd h.1 henabled
  rw [if_neg (by simp [hs, henabled]), returns_bind]
  by_cases hasks : ∃ mobility, asksFilter env s mobility
  swap
  · -- nothing is asked, and the state passed on
    have hquery : filterQuery s = .ok none := by
      unfold filterQuery
      dsimp only
      split
      · rfl
      · rename_i hskip
        obtain ⟨hcandidates, hgrounded⟩ := not_or.mp hskip
        split
        · rfl
        · rename_i mobility hmobility
          rw [if_pos]
          by_contra hcoords
          exact hasks ⟨mobility, henabled, hcandidates, by simpa using hgrounded, hmobility, hcoords⟩
    exact iff_of_true ⟨none, hquery, returns_pure _⟩ fun mobility h => absurd ⟨mobility, h⟩ hasks
  obtain ⟨mobility, hask⟩ := hasks
  -- the state names one mobility
  have honly : (∀ mobility', asksFilter env s mobility' → FilterSurvives env s mobility') ↔
      FilterSurvives env s mobility := by
    refine ⟨fun h => h mobility hask, fun h mobility' hask' => ?_⟩
    have := hask.2.2.2.1.symm.trans hask'.2.2.2.1
    rwa [← Option.some.inj this]
  rw [honly, filterQuery_of_asks hask]
  constructor
  · -- a node that returns read both coordinates and the answer
    rintro ⟨query, hquery, hreturns⟩
    obtain ⟨lat, hlat, hquery⟩ := bind_eq_ok.mp hquery
    obtain ⟨lng, hlng, hquery⟩ := bind_eq_ok.mp hquery
    cases hquery
    refine ⟨lat, lng, hlat, hlng, fun m hm => ?_⟩
    dsimp only at hreturns
    rw [hm] at hreturns
    obtain ⟨filtered, hfiltered, -⟩ := returns_bind.mp hreturns
    exact returns_filteredCandidates.mp ⟨filtered, hfiltered⟩ m rfl
  · rintro ⟨lat, lng, hlat, hlng, hloops⟩
    refine ⟨some (lat, lng, mobility.value, s.candidates.getD []), ?_, ?_⟩
    · exact bind_eq_ok.mpr ⟨lat, hlat, bind_eq_ok.mpr ⟨lng, hlng, rfl⟩⟩
    · dsimp only
      cases hresp : env.hub.filterMobilityRadius lat lng mobility.value (s.candidates.getD []) with
      | error e =>
        -- what the hub raises is handled
        dsimp only
        rw [if_pos (degradesRules_of_outcome (houtcome _ _ _ _ e hresp))]
        exact returns_pure _
      | ok resp =>
        rw [hresp] at hloops
        have hfiltered : Returns (filteredCandidates resp) :=
          returns_filteredCandidates.mpr fun m hm => hloops m (congrArg Except.ok hm)
        refine (returns_bind_of fun filtered => ?_).mpr hfiltered
        split <;> exact returns_pure _

/-! ### The ranking -/

/-- The rain of the days can be read when a plan has it, or the forecast's days can be
    gone through. -/
theorem returns_dayPopMax :
    Returns (dayPopMax s) ↔ ((s.plan.map (·.days)).getD [] = [] → dailyLoops s.weather) := by
  unfold dayPopMax dailyLoops
  cases hdays : (s.plan.map (·.days)).getD [] with
  -- a plan with days is asked instead of the forecast
  | cons d days => simp
  | nil =>
    simp only [true_implies]
    cases hw : s.weather with
    | none => simp
    | some weather =>
      cases weather with
      | obj m =>
        simp only [Option.some.injEq, Json.obj.injEq, forall_eq']
        rw [← returns_iter_orElse_arr]
        exact returns_bind_of fun _ => returns_pure _
      | _ => simp

/-- A text is looked up in everything but numbers. -/
theorem returns_hasStr_orElse (needle : String) {v : Json} :
    Returns ((v.orElse (.str "")).hasStr needle) ↔ v.loops = true := by
  have hsame : ∀ w : Json, Returns (w.hasStr needle) ↔ Returns w.iter := by
    intro w
    cases w <;> simp [Json.hasStr, Json.iter]
  rw [hsame]
  exact returns_iter_orElse (returns_ok _)

/-- A text can be searched for some words when it can be gone through. -/
theorem returns_anyIn {v : Json} {needles : List String} (hne : needles ≠ []) :
    Returns (anyIn (v.orElse (.str "")) needles) ↔ v.loops = true := by
  induction needles with
  | nil => exact absurd rfl hne
  | cons n ns ih =>
    rw [anyIn, returns_bind, ← returns_hasStr_orElse n]
    refine exists_congr fun found => and_iff_left_of_imp fun hfound => ?_
    split
    · -- the first word is found, and the others are not looked for
      exact returns_pure _
    · cases ns with
      | nil => exact returns_ok _
      | cons n' ns =>
        -- it is not, and the next one is looked for in the same text
        exact (ih (by simp)).mpr ((returns_hasStr_orElse n).mp ⟨found, hfound⟩)

/-- Every theme of the table looks for some piece of text. -/
theorem themeAffinity_needles {theme : String} {codes needles : List String}
    (h : themeAffinity.lookup theme = some (codes, needles)) : needles ≠ [] := by
  have hall : ∀ row ∈ themeAffinity, row.2.2 ≠ [] := by decide
  obtain ⟨l₁, l₂, hsplit, -⟩ := List.lookup_eq_some_iff.mp h
  exact hall (theme, codes, needles) (by rw [hsplit]; simp)

/-- A theme makes the ranking look into the category text. -/
def looksIntoText (code : Json) (theme : String) : Prop :=
  ∃ codes needles, themeAffinity.lookup (lower (strip theme)) = some (codes, needles) ∧
    (codes.any fun c => code.eqStr c) = false

/-- The liking for a place can be reckoned when its text can be searched wherever a
    theme has to. -/
theorem returns_affinityFrom {code v : Json} {best : ℚ} {i : Nat} {themes : List String} :
    Returns (affinityFrom code (v.orElse (.str "")) best i themes) ↔
      ∀ theme ∈ themes, looksIntoText code theme → v.loops = true := by
  induction themes generalizing best i with
  | nil => simp [affinityFrom]
  | cons theme themes ih =>
    rw [affinityFrom, List.forall_mem_cons]
    cases hlookup : themeAffinity.lookup (lower (strip theme)) with
    | none =>
      -- an unknown theme looks at nothing
      have hnot : ¬ looksIntoText code theme := by
        rintro ⟨codes, needles, h, -⟩
        rw [hlookup] at h
        cases h
      dsimp only
      rw [ih]
      exact ⟨fun h => ⟨fun hl => absurd hl hnot, h⟩, fun h => h.2⟩
    | some row =>
      obtain ⟨codes, needles⟩ := row
      dsimp only
      by_cases hcode : (codes.any fun c => code.eqStr c) = true
      · -- the code settles the theme, and the text is not looked at
        have hnot : ¬ looksIntoText code theme := by
          rintro ⟨codes', needles', h, hno⟩
          rw [hlookup] at h
          cases h
          rw [hcode] at hno
          cases hno
        rw [if_pos hcode, ih]
        exact ⟨fun h => ⟨fun hl => absurd hl hnot, h⟩, fun h => h.2⟩
      · -- the text is searched for the needles
        have hlooks : looksIntoText code theme :=
          ⟨codes, needles, hlookup, by simpa using hcode⟩
        rw [if_neg hcode, returns_bind]
        constructor
        · -- whether it is found or not, the themes after it are looked at
          rintro ⟨found, hfound, h⟩
          refine ⟨fun _ => (returns_anyIn (themeAffinity_needles hlookup)).mp ⟨found, hfound⟩, ?_⟩
          split at h <;> exact ih.mp h
        · rintro ⟨hloops, h⟩
          obtain ⟨found, hfound⟩ := (returns_anyIn (themeAffinity_needles hlookup)).mpr (hloops hlooks)
          refine ⟨found, hfound, ?_⟩
          split <;> exact ih.mpr h

/-- The counts of a segment list its places. -/
def listsPlaces (segment : Json) : Prop :=
  ∃ seg places, segment = .obj seg ∧ dictGet seg "places" = .obj places

/-- The gain of a segment can be read when the identifier can be looked up where there
    are places. -/
theorem returns_segmentGain {pf : Platform} {m : List (String × Json)} {segment : Json}
    (hcid : (dictGet m "content_id").truthy = true) :
    Returns (segmentGain pf m segment) ↔
      (listsPlaces segment → (dictGet m "content_id").hashable = true) := by
  unfold segmentGain
  dsimp only
  cases segment with
  | obj seg =>
    dsimp only
    rw [hcid, if_neg (by decide)]
    cases hplaces : dictGet seg "places" with
    | obj places =>
      -- the identifier is looked up among the listed places
      have hlists : listsPlaces (.obj seg) := ⟨seg, places, rfl, hplaces⟩
      simp only [hlists, true_implies, ← returns_key]
      cases hkey : (dictGet m "content_id").key with
      | error e => simp
      | ok k => cases k <;> simp
    | _ =>
      refine iff_of_true (returns_ok _) ?_
      rintro ⟨seg', places, hseg, h⟩
      cases hseg
      rw [hplaces] at h
      cases h
  | _ =>
    refine iff_of_true (returns_ok _) ?_
    rintro ⟨seg, places, hseg, -⟩
    cases hseg

/-- A candidate with an identifier can be scored. -/
structure Scorable (themes : List String) (segment : Json) (m : List (String × Json)) : Prop where
  group : (dictGet m "category_group_code").hashable = true
  category : ∀ theme ∈ themes.take themeQueryMax,
    looksIntoText (dictGet m "category_group_code") theme → (dictGet m "category").loops = true
  identifier : listsPlaces segment → (dictGet m "content_id").hashable = true

/-- A candidate can be made a point of interest when what is scored of it can be read. -/
theorem returns_poiOf {themes : List String} {segment c : Json} {i : Nat} :
    Returns (poiOf env themes segment c i) ↔
      ∀ m, c = .obj m → (dictGet m "content_id").truthy = true → Scorable themes segment m := by
  cases c with
  | obj m =>
    simp only [poiOf, Json.obj.injEq, forall_eq']
    cases hcid : (dictGet m "content_id").truthy with
    | false => simp
    | true =>
      -- the code, the category and the identifier are each read once
      have hindoor : Returns (isIndoor m) ↔ (dictGet m "category_group_code").hashable = true := by
        rw [← returns_key]
        exact returns_bind_of fun _ => returns_pure _
      have haffinity : Returns (affinity m themes) ↔ _ := returns_affinityFrom
      rw [if_neg (by decide), returns_bind]
      simp only [true_implies]
      constructor
      · rintro ⟨indoor, hin, h⟩
        obtain ⟨liking, hlike, h⟩ := returns_bind.mp h
        have hgain := (returns_bind_of fun _ => returns_pure _).mp h
        exact ⟨hindoor.mp ⟨indoor, hin⟩, haffinity.mp ⟨liking, hlike⟩,
          (returns_segmentGain hcid).mp hgain⟩
      · intro h
        obtain ⟨indoor, hin⟩ := hindoor.mpr h.group
        obtain ⟨liking, hlike⟩ := haffinity.mpr h.category
        refine ⟨indoor, hin, returns_bind.mpr ⟨liking, hlike, ?_⟩⟩
        exact (returns_bind_of fun _ => returns_pure _).mpr
          ((returns_segmentGain hcid).mpr h.identifier)
  | _ => simp [poiOf]

/-- What personalization adds: the themes asked for and the counts of the
    unknown segment. -/
def themesOf (env : Env) (req : AgentRequest) : List String :=
  if env.settings.personalizationEnabled then req.theme.getD [] else []

/-- The segment the trip is scored by, where there is one. -/
def segmentOf (env : Env) : Json :=
  if env.settings.personalizationEnabled then
    match (dictGet env.segmentStats "segments").orElse (.obj []) with
    | .obj segments => dictGet segments "unknown|unknown"
    | _ => .null
  else .null

/-- What loading the counts checks: their segments are an object, if any. -/
def StatsLoaded (env : Env) : Prop :=
  ∃ segments, (dictGet env.segmentStats "segments").orElse (.obj []) = .obj segments

/-- With the statistics loaded, the points of interest are made one by one for one
    segment. -/
theorem poisOf_eq (hstats : StatsLoaded env) (req : AgentRequest) (candidates : List Json) :
    poisOf env req candidates = (do
      let pois ← candidates.zipIdx.mapM fun (c, i) => poiOf env (themesOf env req) (segmentOf env) c i
      return pois.filterMap id) := by
  obtain ⟨segments, hsegments⟩ := hstats
  unfold poisOf themesOf segmentOf segmentFor
  cases env.settings.personalizationEnabled with
  | false => rfl
  | true =>
    rw [hsegments]
    rfl

/-- A fact about the elements of a list, numbered or not, is the same. -/
theorem forall_mem_zipIdx {α : Type} {l : List α} {P : α → Prop} :
    (∀ x ∈ l.zipIdx, P x.1) ↔ ∀ a ∈ l, P a := by
  constructor
  · intro h a ha
    obtain ⟨i, hi, rfl⟩ := List.getElem_of_mem ha
    exact h (l[i], i) (List.mem_zipIdx_iff_getElem?.mpr (by simp))
  · exact fun h x hx => h x.1 (List.fst_mem_of_mem_zipIdx hx)

/-- The points of interest can be made when each candidate with an identifier can be
    scored. -/
theorem returns_poisOf (hstats : StatsLoaded env) {req : AgentRequest} {candidates : List Json} :
    Returns (poisOf env req candidates) ↔ ∀ m, Json.obj m ∈ candidates →
      (dictGet m "content_id").truthy = true → Scorable (themesOf env req) (segmentOf env) m := by
  rw [poisOf_eq hstats, returns_bind_of fun _ => returns_pure _, returns_mapM]
  simp only [returns_poiOf]
  rw [forall_mem_zipIdx (P := fun c : Json => ∀ m, c = .obj m →
    (dictGet m "content_id").truthy = true → Scorable (themesOf env req) (segmentOf env) m)]
  exact ⟨fun h m hm => h _ hm m rfl, fun h c hc m hcm => h m (hcm ▸ hc)⟩

/-- An entry of the hub's answer that gives a candidate a score. -/
def givesScore (m : List (String × Json)) : Prop :=
  dictGet m "content_id" ≠ .null ∧ (dictGet m "score").num?.isSome = true

/-- The entries that give a score name candidates by what can be a key. -/
def namesCandidates (entries : List Json) : Prop :=
  ∀ m, Json.obj m ∈ entries → givesScore m → (dictGet m "content_id").hashable = true

/-- The scores can be read when each entry with a score names its candidate by a key. -/
theorem returns_scoresOf {entries : List Json} :
    Returns (scoresOf entries) ↔ namesCandidates entries := by
  unfold scoresOf namesCandidates
  rw [returns_foldlM (P := fun entry : Json => ∀ m, entry = .obj m → givesScore m →
    (dictGet m "content_id").hashable = true)]
  · exact ⟨fun h m hm => h _ hm m rfl, fun h c hc m hcm => h m (hcm ▸ hc)⟩
  intro scores entry
  cases entry with
  | obj m =>
    simp only [Json.obj.injEq, forall_eq', givesScore]
    -- an entry without a score is passed over, whatever its identifier
    cases hscore : (dictGet m "score").num? with
    | none => cases dictGet m "content_id" <;> simp
    | some score =>
      rw [← returns_key]
      cases hcid : dictGet m "content_id" with
      | null => simp
      | _ => simp [returns_map]
  | _ => simp

/-- A dictionary with an entry set is not empty. -/
theorem dictSet_ne_nil {κ α : Type} [DecidableEq κ] (d : List (κ × α)) (k : κ) (v : α) :
    dictSet d k v ≠ [] := by
  fun_cases dictSet d k v <;> simp

/-- Some score was taken exactly when an entry gives one. -/
theorem scoresOf_ne_nil {entries : List Json} {scores : List (PyKey × Json)}
    (h : scoresOf entries = .ok scores) :
    scores ≠ [] ↔ ∃ m, Json.obj m ∈ entries ∧ givesScore m := by
  unfold scoresOf at h
  rw [foldlM_or (P := fun entry : Json => ∃ m, entry = .obj m ∧ givesScore m)
    (Q := fun d => d ≠ []) ?_ h]
  · simp only [ne_eq, not_true_eq_false, false_or]
    constructor
    · rintro ⟨_, hmem, m, rfl, hm⟩
      exact ⟨m, hmem, hm⟩
    · rintro ⟨m, hmem, hm⟩
      exact ⟨_, hmem, m, rfl, hm⟩
  -- one entry adds a score, or leaves the dictionary as it is
  intro d entry d' hstep
  cases entry with
  | obj m =>
    simp only [Json.obj.injEq, exists_eq_left', givesScore]
    cases hscore : (dictGet m "score").num? with
    | none =>
      -- without a score nothing is written
      cases hcid : dictGet m "content_id" <;> simp_all
    | some score =>
      cases hcid : dictGet m "content_id" with
      | null => simp_all
      | _ =>
        simp only [hcid, hscore] at hstep
        obtain ⟨k, -, hk⟩ := bind_eq_ok.mp hstep
        cases pure_eq_ok.mp hk
        simp [dictSet_ne_nil]
  | _ =>
    cases hstep
    simp

/-- Candidates are looked up among the scores by what can be a key. -/
def keyed (candidates : List Json) : Prop :=
  ∀ m, Json.obj m ∈ candidates → (dictGet m "content_id").hashable = true

/-- A candidate has a rank when its identifier can be a key. -/
theorem returns_rankKey {scores : List (PyKey × Json)} {c : Json} {i : Nat} :
    Returns (rankKey scores c i) ↔ ∀ m, c = .obj m → (dictGet m "content_id").hashable = true := by
  unfold rankKey
  cases c with
  | obj m =>
    simp only [Json.obj.injEq, forall_eq', ← returns_key]
    exact returns_bind_of fun _ => returns_pure _
  | _ =>
    dsimp only
    exact iff_of_true (returns_ok _) (by intro m h; cases h)

/-- The candidates can be ranked when all their identifiers can be keys. -/
theorem returns_rankBy {scores : List (PyKey × Json)} {candidates : List Json} :
    Returns (rankBy scores candidates) ↔ keyed candidates := by
  unfold rankBy keyed
  rw [returns_bind_of fun _ => returns_pure _, returns_mapM]
  have hstep : ∀ x : Json × Nat, Returns (do return (← rankKey scores x.1 x.2, x.1)) ↔
      ∀ m, x.1 = .obj m → (dictGet m "content_id").hashable = true := fun x =>
    (returns_bind_of fun _ => returns_pure _).trans returns_rankKey
  simp only [hstep]
  rw [forall_mem_zipIdx (P := fun c : Json => ∀ m, c = .obj m →
    (dictGet m "content_id").hashable = true)]
  exact ⟨fun h m hm => h _ hm m rfl, fun h c hc m hcm => h m (hcm ▸ hc)⟩

/-- An answer of the hub the ranking can read: under `scored`, should it be an
    object, stands what can be run over; the entries that give a score name
    candidates, and when there are any, so do all candidates. -/
def ScoresRead (candidates : List Json) (resp : Json) : Prop :=
  ∀ m, resp = .obj m → (dictGet m "scored").loops = true ∧
    ∀ entries, dictGet m "scored" = .arr entries → namesCandidates entries ∧
      ((∃ e, Json.obj e ∈ entries ∧ givesScore e) → keyed candidates)

/-- The ranking asks the hub: it is on, and there is something to rank. -/
def asksScores (env : Env) (s : AgentState) : Prop :=
  env.settings.rulesEnabled = true ∧ s.candidates.getD [] ≠ [] ∧ s.grounded.getD false = true

/-- The forecast, the candidates and the hub's answer for them can be read. -/
structure RankSurvives (env : Env) (s : AgentState) : Prop where
  weather : (s.plan.map (·.days)).getD [] = [] → dailyLoops s.weather
  candidates : ∀ m, Json.obj m ∈ s.candidates.getD [] → (dictGet m "content_id").truthy = true →
    Scorable (themesOf env s.request) (segmentOf env) m
  scores : ∀ popMax pois resp, dayPopMax s = .ok popMax →
    poisOf env s.request (s.candidates.getD []) = .ok pois → pois ≠ [] →
    env.hub.scoreIndoorBonus pois popMax = .ok resp → ScoresRead (s.candidates.getD []) resp

/-- What the ranking does with the entries of the hub's answer. -/
def rankWith (s : AgentState) (candidates entries : List Json) : Except PyExn AgentState := do
  let scores ← scoresOf entries
  if scores = [] then return s
  else return { s with scores := some scores, candidates := some (← rankBy scores candidates) }

/-- Ranking reads the entries, and the candidates when some entry has a score. -/
theorem returns_rankWith {candidates entries : List Json} :
    Returns (rankWith s candidates entries) ↔ namesCandidates entries ∧
      ((∃ e, Json.obj e ∈ entries ∧ givesScore e) → keyed candidates) := by
  rw [← returns_scoresOf]
  constructor
  · intro h
    obtain ⟨scores, hscores, h⟩ := returns_bind.mp h
    refine ⟨⟨scores, hscores⟩, fun hsome => ?_⟩
    -- some score is given, so the candidates are ranked by it
    rw [if_neg ((scoresOf_ne_nil hscores).mpr hsome)] at h
    exact returns_rankBy.mp ((returns_bind_of fun _ => returns_pure _).mp h)
  · rintro ⟨⟨scores, hscores⟩, hkeyed⟩
    apply returns_bind.mpr
    refine ⟨scores, hscores, ?_⟩
    split
    · exact returns_pure _
    · rename_i hne
      apply (returns_bind_of fun _ => returns_pure _).mpr
      exact returns_rankBy.mpr (hkeyed ((scoresOf_ne_nil hscores).mp hne))

/-- What is run over in place of a value holds objects only if it is a list. -/
theorem iter_orElse_arr_cases {v : Json} {l : List Json} (h : (v.orElse (.arr [])).iter = .ok l) :
    v = .arr l ∨ ((∀ m, Json.obj m ∉ l) ∧ ∀ l', v ≠ .arr l') := by
  cases v with
  | arr l' =>
    rw [Json.iter_orElse_arr] at h
    cases h
    exact Or.inl rfl
  | _ =>
    apply Or.inr
    unfold Json.orElse at h
    split at h <;> cases h <;> simp

/-- What the scorer answers can be used when its scores can be read. -/
theorem returns_scores {candidates : List Json} {resp : Json} :
    Returns (scoredEntries resp >>= rankWith s candidates) ↔ ScoresRead candidates resp := by
  unfold ScoresRead
  cases resp with
  | obj m =>
    simp only [scoredEntries, Json.obj.injEq, forall_eq', ← returns_iter_orElse_arr]
    cases hiter : ((dictGet m "scored").orElse (.arr [])).iter with
    | error e => simp [returns_bind]
    | ok entries =>
      rw [returns_bind]
      simp only [Except.ok.injEq, exists_eq_left', returns_ok, true_and, returns_rankWith]
      rcases iter_orElse_arr_cases hiter with harr | ⟨hnone, harr⟩
      · -- the scored entries are a list
        rw [harr]
        simp
      · -- or there are none
        apply iff_of_true
        · refine ⟨fun m h => absurd h (hnone m), ?_⟩
          rintro ⟨m, h, -⟩
          exact absurd h (hnone m)
        · exact fun l h => absurd h (harr l)
  | _ =>
    apply iff_of_true
    · apply returns_bind.mpr
      -- an answer that is no object has no entries
      exact ⟨[], rfl, returns_rankWith.mpr ⟨by simp [namesCandidates], by simp⟩⟩
    · intro m h
      cases h

/-- `score_and_rank` returns unless it asks the hub and something in the way
    cannot be read. -/
theorem scoreAndRank_returns_iff (hs : s.failed = false) (hstats : StatsLoaded env)
    (houtcome : ∀ pois popMax, HubOutcome (env.hub.scoreIndoorBonus pois popMax)) :
    Returns (scoreAndRank env s) ↔ (asksScores env s → RankSurvives env s) := by
  unfold scoreAndRank
  dsimp only
  by_cases hasks : asksScores env s
  swap
  · -- the state is passed on
    refine iff_of_true ?_ fun h => absurd h hasks
    split
    · exact returns_ok _
    · rename_i hon
      rw [if_pos]
      · exact returns_ok _
      · by_contra hskip
        obtain ⟨hcandidates, hgrounded⟩ := not_or.mp hskip
        refine hasks ⟨?_, hcandidates, by simpa using hgrounded⟩
        simpa [hs] using hon
  obtain ⟨henabled, hcandidates, hgrounded⟩ := hasks
  rw [if_neg (by simp [hs, henabled]), if_neg (by simp [hcandidates, hgrounded])]
  constructor
  · intro h _
    -- each thing the node read could be read
    obtain ⟨popMax, hpop, h⟩ := returns_bind.mp h
    obtain ⟨pois, hpois, h⟩ := returns_bind.mp h
    refine ⟨returns_dayPopMax.mp ⟨popMax, hpop⟩, (returns_poisOf hstats).mp ⟨pois, hpois⟩, ?_⟩
    intro popMax' pois' resp hpop' hpois' hne hresp
    cases hpop.symm.trans hpop'
    cases hpois.symm.trans hpois'
    rw [if_neg hne, hresp] at h
    exact returns_scores.mp h
  · intro h
    obtain ⟨hweather, hscorable, hscores⟩ := h ⟨henabled, hcandidates, hgrounded⟩
    obtain ⟨popMax, hpop⟩ := returns_dayPopMax.mpr hweather
    obtain ⟨pois, hpois⟩ := (returns_poisOf hstats).mpr hscorable
    apply returns_bind.mpr
    refine ⟨popMax, hpop, returns_bind.mpr ⟨pois, hpois, ?_⟩⟩
    split
    · exact returns_pure _
    · -- there is something to ask about
      rename_i hne
      cases hresp : env.hub.scoreIndoorBonus pois popMax with
      | error e =>
        dsimp only
        rw [if_pos (degradesRules_of_outcome (houtcome pois popMax e hresp))]
        exact returns_pure _
      | ok resp => exact returns_scores.mpr (hscores popMax pois resp hpop hpois hne hresp)

/-! ### The reviews -/

/-- A candidate whose reviews are looked for: it has an identifier and a name. -/
def reviewable : Json → Option (List (String × Json))
  | .obj m => if (dictGet m "content_id").truthy && (dictGet m "name").truthy then some m else none
  | _ => none

/-- An answer of the hub the reviews of a candidate can be read from; what they
    are kept under can be a key. -/
def ReviewsRead (display : Int) (m : List (String × Json)) (resp : Json) : Prop :=
  (∀ r, resp = .obj r → (dictGet r "reviews").loops = true) ∧
    ∀ snippets, snippetsFromResponse resp display = .ok snippets → snippets ≠ [] →
      (dictGet m "content_id").hashable = true

/-- The review call number `i` of the job, for the candidate `m`, is answered by
    what can be read. -/
def ReviewCallSurvives (env : Env) (req : AgentRequest) (m : List (String × Json)) (i : Nat) : Prop :=
  ∀ resp, env.hub.fetchReviews i (reviewQuery env.platform req (dictGet m "name"))
    env.settings.reviewsDisplay = .ok resp → ReviewsRead env.settings.reviewsDisplay m resp

/-- The snippets can be read when what is under `reviews` can be gone through. -/
theorem returns_snippetsFromResponse {resp : Json} {keep : Int} :
    Returns (snippetsFromResponse resp keep) ↔
      ∀ r, resp = .obj r → (dictGet r "reviews").loops = true := by
  unfold snippetsFromResponse
  cases resp with
  | obj r =>
    simp only [Json.obj.injEq, forall_eq', ← returns_iter_orElse_arr]
    exact returns_bind_of fun _ => returns_pure _
  | _ => exact iff_of_true (returns_ok _) (by intro m h; cases h)

/-- Whatever the hub may raise is an exception. -/
theorem isException_of_outcome {e : PyExn} (h : e.isHttpError = true ∨ e.isValueError = true) :
    e.isException = true := by
  cases e <;> first | rfl | simp [PyExn.isHttpError, PyExn.isValueError] at h

/-- The loop of the reviews returns when every call it still makes is answered by what can be
    read. -/
theorem returns_fetchReviewsLoop {req : AgentRequest} {limit used : Nat}
    {reviews : List (PyKey × List String)} {candidates : List Json}
    (houtcome : ∀ i query display, HubOutcome (env.hub.fetchReviews i query display)) :
    Returns (fetchReviewsLoop env req limit used reviews candidates) ↔
      ∀ x ∈ ((candidates.filterMap reviewable).take limit).zipIdx used,
        ReviewCallSurvives env req x.1 x.2 := by
  -- the limit counts the calls left, `used` those made
  induction candidates generalizing limit used reviews with
  | nil => cases limit <;> simp [fetchReviewsLoop]
  | cons c cs ih =>
    cases limit with
    | zero => simp [fetchReviewsLoop]
    | succ limit =>
      cases c with
      | obj m =>
        rw [fetchReviewsLoop]
        dsimp only
        by_cases hnamed : ((dictGet m "content_id").truthy && (dictGet m "name").truthy) = true
        swap
        · -- a candidate without an identifier or a name costs no call
          rw [if_pos (by simpa [Bool.or_eq_true, Decidable.imp_iff_not_or] using hnamed), ih]
          simp [reviewable, hnamed]
        · -- one call, which may fail without harm
          have hask : reviewable (.obj m) = some m := if_pos hnamed
          rw [if_neg (by simpa using hnamed), List.filterMap_cons_some hask, List.take_succ_cons,
            List.zipIdx_cons, List.forall_mem_cons]
          cases hresp : env.hub.fetchReviews used (reviewQuery env.platform req (dictGet m "name"))
              env.settings.reviewsDisplay with
          | error e =>
            dsimp only
            rw [if_pos (isException_of_outcome (houtcome _ _ _ e hresp)), ih]
            refine ⟨fun h => ⟨fun resp hok => ?_, h⟩, fun h => h.2⟩
            rw [hresp] at hok
            cases hok
          | ok resp =>
            have hcall : ReviewCallSurvives env req m used ↔
                ReviewsRead env.settings.reviewsDisplay m resp := by
              simp [ReviewCallSurvives, hresp]
            dsimp only
            rw [hcall, ReviewsRead, returns_bind,
              ← returns_snippetsFromResponse]
            cases hsnippets : snippetsFromResponse resp env.settings.reviewsDisplay with
            | error e => simp
            | ok snippets =>
              simp only [Except.ok.injEq, exists_eq_left', returns_ok, true_and, forall_eq']
              -- snippets are stored under the identifier, if there are any
              by_cases hnil : snippets = []
              · rw [if_pos hnil, ih]
                simp [hnil]
              · rw [if_neg hnil, returns_bind, ← returns_key]
                simp only [ih, exists_and_right, hnil, ne_eq, not_false_eq_true, true_implies]
                rfl
      | _ =>
        have hskip : ∀ c : Json, c.isDict = false →
            (c :: cs).filterMap reviewable = cs.filterMap reviewable := by
          intro c hc
          apply List.filterMap_cons_none
          cases c <;> first | rfl | cases hc
        rw [fetchReviewsLoop, hskip _ rfl, ih]
        intro m h
        cases h

/-- `_fetch_reviews_for` returns when the calls the budget leaves room for are
    answered by what can be read. -/
theorem fetchReviewsFor_returns_iff {candidates : List Json}
    (houtcome : ∀ i query display, HubOutcome (env.hub.fetchReviews i query display)) :
    Returns (fetchReviewsFor env candidates s) ↔
      ∀ x ∈ ((candidates.filterMap reviewable).take
          (min env.settings.reviewsMaxPlaces (reviewsBudgetLeft env s)).toNat).zipIdx
          (s.reviewsFetchUsed.getD 0), ReviewCallSurvives env s.request x.1 x.2 :=
  returns_fetchReviewsLoop houtcome

/-! ### The timeline -/

/-- Estimates that can be taken down by their identifiers. -/
def EstimatesRead (resp : Json) : Prop :=
  ∃ m, resp = .obj m ∧ (dictGet m "estimates").loops = true ∧
    ∀ entries, dictGet m "estimates" = .arr entries →
      ∀ e, Json.obj e ∈ entries → (dictGet e "content_id").hashable = true

/-- The stay an estimate gives a place is a number. -/
def stayReads (pf : Platform) (byKey : List (PyKey × List (String × Json))) (p : Place) : Prop :=
  (dictGet (((keyedBy (·.1) byKey (.str (dwellKey p))).map (·.2)).getD []) "stay_minutes").readsInt
    pf = true

/-- An answer of the hub the stays can be read from: an object whose estimates
    can be taken down, and give every place a number. -/
def DwellRead (pf : Platform) (places : List Place) (resp : Json) : Prop :=
  EstimatesRead resp ∧
    ∀ byKey, estimatesByKey resp = .ok byKey → ∀ p ∈ places, stayReads pf byKey p

/-- The estimates can be read when each of them can be found by a key. -/
theorem returns_estimatesByKey {resp : Json} :
    Returns (estimatesByKey resp) ↔ EstimatesRead resp := by
  unfold estimatesByKey EstimatesRead
  cases resp with
  | obj m =>
    simp only [Json.get, Json.obj.injEq, exists_eq_left', ← returns_iter_orElse_arr]
    rw [returns_bind]
    simp only [Except.ok.injEq, exists_eq_left']
    cases hiter : ((dictGet m "estimates").orElse (.arr [])).iter with
    | error e => simp [returns_bind]
    | ok entries =>
      rw [returns_bind]
      simp only [Except.ok.injEq, exists_eq_left', returns_ok, true_and, returns_mapM,
        returns_bind_of fun _ => returns_pure _, returns_key]
      -- only the objects among the entries are taken down
      refine (forall_congr' fun e => imp_congr_left
        (mem_filterMap_iff_of (g := Json.obj) ?_)).trans ?_
      · intro v e
        cases v <;> simp
      rcases iter_orElse_arr_cases hiter with harr | ⟨hnone, harr⟩
      · -- a list of entries, or nothing to take down
        rw [harr]
        simp
      · exact iff_of_true (fun m h => absurd h (hnone m)) fun l h => absurd h (harr l)
  | _ => simp [Json.get, returns_bind]

/-- The stays can be read when the estimates can, and each one's minutes. -/
theorem returns_dwellEstimates {pf : Platform} {places : List Place} {resp : Json} :
    Returns (dwellEstimates pf places resp) ↔ DwellRead pf places resp := by
  have hdwell : ∀ byKey p, Returns (dwellOf pf byKey p) ↔ stayReads pf byKey p := by
    intro byKey p
    rw [stayReads, ← returns_pyInt]
    exact returns_bind_of fun _ => returns_pure _
  rw [dwellEstimates, returns_bind, DwellRead, ← returns_estimatesByKey]
  simp only [returns_mapM, hdwell]
  -- the estimates are read once, the stays one by one
  constructor
  · rintro ⟨byKey, hkeys, hstays⟩
    refine ⟨⟨byKey, hkeys⟩, fun byKey' hkeys' => ?_⟩
    cases hkeys.symm.trans hkeys'
    exact hstays
  · rintro ⟨⟨byKey, hkeys⟩, hstays⟩
    exact ⟨byKey, hkeys, hstays byKey hkeys⟩

/-- `build_timeline` returns unless it asks the hub and cannot read the answer. -/
theorem buildTimeline_returns_iff (hs : s.failed = false)
    (houtcome : ∀ places, HubOutcome (env.hub.estimateDwell places)) :
    Returns (buildTimeline env s) ↔
      (env.settings.timelineEnabled = true → s.places.getD [] ≠ [] →
        ∀ resp, env.hub.estimateDwell (dwellRequest (s.places.getD [])) = .ok resp →
          DwellRead env.platform (s.places.getD []) resp) := by
  unfold buildTimeline
  dsimp only
  rw [if_neg (by simp [hs])]
  by_cases hon : env.settings.timelineEnabled = false ∨ s.places.getD [] = []
  · -- no timeline is asked for
    rw [if_pos hon]
    apply iff_of_true (returns_ok _)
    intro henabled hplaces
    rcases hon with hoff | hnil
    · rw [henabled] at hoff
      cases hoff
    · exact absurd hnil hplaces
  obtain ⟨henabled, hplaces⟩ := not_or.mp hon
  rw [if_neg hon]
  simp only [Bool.not_eq_false] at henabled
  simp only [henabled, hplaces, ne_eq, not_false_eq_true, true_implies]
  cases hresp : env.hub.estimateDwell (dwellRequest (s.places.getD [])) with
  | error e =>
    dsimp only
    rw [if_pos (by rcases houtcome _ e hresp with h | h <;> simp [h])]
    exact iff_of_true (returns_ok _) (by intro resp h; cases h)
  | ok resp =>
    -- the answer has to be read
    simp only [Except.ok.injEq, forall_eq']
    rw [← returns_dwellEstimates]
    exact returns_bind_of fun _ => returns_pure _

/-! ### The six steps -/

/-- The hub ends every call that serves an optional step in an answer. -/
structure Hub.Answers (hub : Hub) : Prop where
  weather : ∀ province city dateStart dateEnd,
    HubOutcome (hub.fetchWeather province city dateStart dateEnd)
  filter : ∀ lat lng mobility candidates,
    HubOutcome (hub.filterMobilityRadius lat lng mobility candidates)
  scores : ∀ pois popMax, HubOutcome (hub.scoreIndoorBonus pois popMax)
  reviews : ∀ i query display, HubOutcome (hub.fetchReviews i query display)
  dwell : ∀ places, HubOutcome (hub.estimateDwell places)

/-- The body of the weather answer decodes. -/
def WeatherDecodes (env : Env) (req : AgentRequest) : Prop :=
  ∀ e, env.hub.fetchWeather req.province req.city req.date.dateStart req.date.dateEnd = .error e →
    e.isValueError = false

/-- The calls `_fetch_reviews_for` has budget for are answered by what can be
    read. -/
def ReviewsSurvive (env : Env) (s : AgentState) (candidates : List Json) : Prop :=
  ∀ x ∈ ((candidates.filterMap reviewable).take
      (min env.settings.reviewsMaxPlaces (reviewsBudgetLeft env s)).toNat).zipIdx
      (s.reviewsFetchUsed.getD 0), ReviewCallSurvives env s.request x.1 x.2

/-- The dwell call, if it is made, is answered by what can be read. -/
def TimelineSurvives (env : Env) (s : AgentState) : Prop :=
  env.settings.timelineEnabled = true → s.places.getD [] ≠ [] →
    ∀ resp, env.hub.estimateDwell (dwellRequest (s.places.getD [])) = .ok resp →
      DwellRead env.platform (s.places.getD []) resp

/-- A step returns and leaves the job unfailed. -/
def Passes (step : Except PyExn AgentState) : Prop := ∃ s, step = .ok s ∧ s.failed = false

/-- A step that never fails a job passes when it returns. -/
theorem passes_iff {step : Except PyExn AgentState}
    (hframe : ∀ s', step = .ok s' → s'.failed = false) : Passes step ↔ Returns step := by
  constructor
  · rintro ⟨s', hstep, -⟩
    exact ⟨s', hstep⟩
  · rintro ⟨s', hstep⟩
    exact ⟨s', hstep, hframe s' hstep⟩

/-- When each optional step passes: the weather decodes, and what the hub
    answered can be read. -/
theorem optional_steps_iff (env : Env) (s : AgentState) (candidates : List Json)
    (hs : s.failed = false) (hhub : env.hub.Answers) (hstats : StatsLoaded env) :
    (Passes (fetchWeather env s) ↔ WeatherDecodes env s.request) ∧
    (Passes (planStrategy env s) ↔ dailyLoops s.weather) ∧
    (Passes (rulesFilter env s) ↔ ∀ mobility, asksFilter env s mobility →
      FilterSurvives env s mobility) ∧
    (Passes (scoreAndRank env s) ↔ (asksScores env s → RankSurvives env s)) ∧
    (Returns (fetchReviewsFor env candidates s) ↔ ReviewsSurvive env s candidates) ∧
    (Passes (buildTimeline env s) ↔ TimelineSurvives env s) := by
  refine ⟨?_, ?_, ?_, ?_, fetchReviewsFor_returns_iff hhub.reviews, ?_⟩
  · rw [passes_iff fun s' h => by rw [fetchWeather_frame h]; exact hs]
    -- the forecast
    exact fetchWeather_returns_iff hs (hhub.weather _ _ _ _)
  · rw [passes_iff fun s' h => by rw [planStrategy_frame h]; exact hs]
    -- the plan made from it
    exact planStrategy_returns_iff hs
  · rw [passes_iff fun s' h => by rw [rulesFilter_frame h]; exact hs]
    -- the walking rules
    exact rulesFilter_returns_iff hs hhub.filter
  · rw [passes_iff fun s' h => by rw [scoreAndRank_frame h]; exact hs]
    -- the scores
    exact scoreAndRank_returns_iff hs hstats hhub.scores
  · rw [passes_iff fun s' h => by rw [buildTimeline_frame h]; exact hs]
    -- the stays
    exact buildTimeline_returns_iff hs hhub.dwell

/-- The sample trip once its candidates are in. -/
def sampleMidway (weather : Json) (places : List Place) : AgentState where
  jobId := "j"
  request := sampleTrip .init
  weather := some weather
  candidates := some [sampleCandidate "a"]
  grounded := some true
  plan := some ⟨[⟨1, 3, 0, none⟩], "normal"⟩
  places := some places

/-- The place the sample trip goes to. -/
def samplePlace : Place where
  placeId := 0
  day := 1
  name := "a"
  address := ""
  lat := 37
  lng := 127
  recommendedVisitTime := ""
  contentId := some "a"
  source := none
  category := none
  categoryGroupCode := none
  phone := none
  placeUrl := none
  crsDstncKm := none
  crsTotalMin := none
  crsLevel := none
  brdDiv := none
  gpxUrl := none
  routeIdx := none
  grounded := true
  valid := by decide

/-- A hub that has something to say to every question. -/
def talkativeHub : Hub where
  fetchWeather _ _ _ _ := .ok (.obj [("daily", .arr [.obj [("precipitation_prob", .int 80)]])])
  searchPlaces _ _ _ _ _ := .ok (.obj [])
  fetchReviews _ _ _ := .ok (.obj [("reviews", .arr [.obj [("description", .str "good")]])])
  filterMobilityRadius _ _ _ candidates := .ok (.obj [("filtered", .arr candidates)])
  scoreIndoorBonus _ _ :=
    .ok (.obj [("scored", .arr [.obj [("content_id", .str "a"), ("score", .int 2)]])])
  estimateDwell _ := .ok (.obj [("estimates", .arr [
    .obj [("content_id", .str "a"), ("stay_minutes", .int 60)]])])
  firstFailure := 0

/-- The sample environment with a hub that answers all that it is asked. -/
def talkativeEnv : Env :=
  { sampleEnv with
    hub := talkativeHub
    settings := { sampleSettings with reviewsMaxPlaces := 1, reviewsFetchCapPerJob := 1 } }

/-- The talkative hub raises nothing. -/
theorem talkativeHub_answers : talkativeHub.Answers := by
  constructor <;> · intros; intro e h; cases h

/-- A step that returns a state without a failure passes. -/
theorem passes_of_failed {step : Except PyExn AgentState}
    (h : step.toOption.map (·.failed) = some false) : Passes step := by
  obtain ⟨s', hstep, hok⟩ := Option.map_eq_some_iff.mp h
  cases step with
  | ok t => exact ⟨t, rfl, Option.some.inj hstep ▸ hok⟩
  | error e => cases hstep

/-- Each of the six steps asks the hub or reads what it has said, and passes: what it
    reads is as it should be. -/
theorem optional_steps_sample :
    let env := talkativeEnv
    let s := sampleMidway (.obj [("daily", .arr [.obj [("precipitation_prob", .int 80)]])])
      [samplePlace]
    (Passes (fetchWeather env s) ∧ WeatherDecodes env s.request) ∧
      (Passes (planStrategy env s) ∧ dailyLoops s.weather) ∧
      (Passes (rulesFilter env s) ∧ asksFilter env s .walk ∧ FilterSurvives env s .walk) ∧
      (Passes (scoreAndRank env s) ∧ asksScores env s ∧ RankSurvives env s) ∧
      (Returns (fetchReviewsFor env [sampleCandidate "a"] s) ∧
        ReviewsSurvive env s [sampleCandidate "a"]) ∧
      (Passes (buildTimeline env s) ∧ TimelineSurvives env s) := by
  intro env s
  obtain ⟨hweather, hplan, hfilter, hrank, hreviews, htimeline⟩ :=
    optional_steps_iff env s [sampleCandidate "a"] rfl talkativeHub_answers ⟨[], rfl⟩
  -- the filter and the scorer are really asked
  have hfilterAsks : asksFilter env s .walk :=
    ⟨rfl, List.cons_ne_nil _ _, rfl, rfl, List.cons_ne_nil _ _⟩
  have hrankAsks : asksScores env s := ⟨rfl, List.cons_ne_nil _ _, rfl⟩
  have hweatherPass : Passes (fetchWeather env s) := passes_of_failed (by decide +kernel)
  have hplanPass : Passes (planStrategy env s) := passes_of_failed (by decide +kernel)
  have hfilterPass : Passes (rulesFilter env s) := passes_of_failed (by decide +kernel)
  have hrankPass : Passes (scoreAndRank env s) := passes_of_failed (by decide +kernel)
  have hreviewsPass : Returns (fetchReviewsFor env [sampleCandidate "a"] s) :=
    returns_of_isSome (by decide +kernel)
  have htimelinePass : Passes (buildTimeline env s) := passes_of_failed (by decide +kernel)
  exact ⟨⟨hweatherPass, hweather.mp hweatherPass⟩, ⟨hplanPass, hplan.mp hplanPass⟩,
    ⟨hfilterPass, hfilterAsks, hfilter.mp hfilterPass _ hfilterAsks⟩,
    ⟨hrankPass, hrankAsks, hrank.mp hrankPass hrankAsks⟩,
    ⟨hreviewsPass, hreviews.mp hreviewsPass⟩, ⟨htimelinePass, htimeline.mp htimelinePass⟩⟩

/-- A hub that answers every question badly. -/
def ailingHub : Hub where
  fetchWeather _ _ _ _ := .error (.valueError "JSONDecodeError")
  searchPlaces _ _ _ _ _ := .ok .null
  fetchReviews _ _ _ := .ok (.obj [("reviews", .int 1)])
  filterMobilityRadius _ _ _ _ := .ok (.obj [("filtered", .int 1)])
  scoreIndoorBonus _ _ := .ok (.obj [("scored", .int 1)])
  estimateDwell _ := .ok (.arr [])
  firstFailure := 0

/-- The sample environment with a hub that answers what cannot be read. -/
def ailingEnv : Env :=
  { sampleEnv with
    hub := ailingHub
    settings := { sampleSettings with reviewsMaxPlaces := 1, reviewsFetchCapPerJob := 1 } }

/-- The ailing hub raises nothing but what it may. -/
theorem ailingHub_answers : ailingHub.Answers := by
  constructor <;> intros <;> intro e h <;> cases h
  exact Or.inr rfl

/-- Each of the six steps raises on an answer of the hub: a weather body that
    does not decode, days of a forecast, filtered candidates, scores and reviews
    that are a number, and dwell estimates that are no object. -/
theorem optional_steps_raise :
    let s := sampleMidway (.obj [("daily", .int 5)]) [samplePlace]
    ailingEnv.hub.Answers ∧ StatsLoaded ailingEnv ∧ s.failed = false ∧
      ¬ Returns (fetchWeather ailingEnv s) ∧ ¬ Returns (planStrategy ailingEnv s) ∧
      ¬ Returns (rulesFilter ailingEnv s) ∧ ¬ Returns (scoreAndRank ailingEnv s) ∧
      ¬ Returns (fetchReviewsFor ailingEnv [sampleCandidate "a"] s) ∧
      ¬ Returns (buildTimeline ailingEnv s) := by
  refine ⟨ailingHub_answers, ⟨[], rfl⟩, rfl, not_returns_error _, not_returns_error _, ?_, ?_, ?_,
    not_returns_error _⟩
  · rw [rulesFilter_returns_iff rfl ailingHub_answers.filter]
    intro h
    -- a number under `filtered` cannot be gone through
    obtain ⟨lat, lng, -, -, hfiltered⟩ := h .walk
      ⟨rfl, List.cons_ne_nil _ _, rfl, rfl, List.cons_ne_nil _ _⟩
    cases hfiltered _ rfl
  · rw [scoreAndRank_returns_iff rfl ⟨[], rfl⟩ ailingHub_answers.scores]
    intro h
    -- nor can one under `scored`
    have hscores := (h ⟨rfl, List.cons_ne_nil _ _, rfl⟩).scores none _ _ rfl rfl
      (List.cons_ne_nil _ _) rfl
    cases (hscores _ rfl).1
  · rw [fetchReviewsFor_returns_iff ailingHub_answers.reviews]
    intro h
    -- nor one under `reviews`
    have hread := h _ (List.mem_cons_self ..) _ rfl
    cases hread.1 _ rfl

end MapServiceAgent.Native

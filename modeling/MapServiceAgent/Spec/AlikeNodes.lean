import MapServiceAgent.ForStd.Lockstep
import MapServiceAgent.Native.RunJob

/-!
# Nodes when exceptions differ in their texts

Two exceptions are alike when they differ in messages, URLs and bodies only: the
class is the same, and of an HTTP response the status and the two facts the
failure codes read. Each node on the state stays in lockstep when the hub
answers alike, whatever the job is called.

## Key results

- `PyExn.Alike.exceptionFailure`: exceptions alike fail alike
- `searchPlaces_alike`, ..., `fitTimeBudget_alike`: one lemma for each node
-/

namespace MapServiceAgent.Native

/-! ### Exceptions alike -/

/-- Whether a body names an outage of the hub's sources. -/
def saysOutage (body : Option Json) : Bool :=
  match responseDetail body with
  | .obj detail => (dictGet detail "code").eqStr "upstream_unavailable"
  | _ => false

/-- Whether a body says that asking again may help. -/
def saysRetryable (body : Option Json) : Bool :=
  match responseDetail body with
  | .obj detail =>
    match dictGet detail "retryable" with
    | .bool true => true
    | _ => false
  | _ => false

/-- Exceptions that differ in messages, URLs and bodies only. -/
inductive PyExn.Alike : PyExn → PyExn → Prop where
  | same (e : PyExn) : Alike e e
  | structuredOutput (truncated : Bool) (rawText cause rawText' cause' : String) :
      Alike (.structuredOutput truncated rawText cause) (.structuredOutput truncated rawText' cause')
  | geminiQuota (code code' : String) : Alike (.geminiQuota code) (.geminiQuota code')
  | httpStatus (status : Int) {body body' : Option Json} :
      saysOutage body = saysOutage body' → saysRetryable body = saysRetryable body' →
      Alike (.httpStatus status body) (.httpStatus status body')

namespace PyExn.Alike

variable {e e' : PyExn} (h : e.Alike e')

include h

/-- Exceptions alike are caught by `except Exception` together. -/
theorem isException : e.isException = e'.isException := by cases h <;> rfl

/-- Exceptions alike are both of `httpx`, or neither is. -/
theorem isHttpError : e.isHttpError = e'.isHttpError := by cases h <;> rfl

/-- Exceptions alike are both `ValueError`s, or neither is. -/
theorem isValueError : e.isValueError = e'.isValueError := by cases h <;> rfl

/-- The rule nodes forgive both of two exceptions alike, or neither. -/
theorem degradesRules : Native.degradesRules e = Native.degradesRules e' := by cases h <;> rfl

/-- The verification fails on both of two exceptions alike, or on neither. -/
theorem failsVerification : Native.failsVerification e = Native.failsVerification e' := by
  cases h <;> rfl

/-- The reasons fall back for one cause on exceptions alike. -/
theorem degradedReasonOf : Native.degradedReasonOf e = Native.degradedReasonOf e' := by
  cases h <;> rfl

/-- Of exceptions alike both report a bad answer, or neither does. -/
theorem structuredOutput_or :
    (∃ truncated rawText cause rawText' cause', e = .structuredOutput truncated rawText cause ∧
      e' = .structuredOutput truncated rawText' cause') ∨
    (∀ truncated rawText cause, e ≠ .structuredOutput truncated rawText cause) ∧
      ∀ truncated rawText cause, e' ≠ .structuredOutput truncated rawText cause := by
  cases h with
  | same =>
    cases e with
    -- one exception twice
    | structuredOutput truncated rawText cause => exact .inl ⟨_, _, _, _, _, rfl, rfl⟩
    | _ => exact .inr ⟨fun _ _ _ => by simp, fun _ _ _ => by simp⟩
  | structuredOutput truncated rawText cause rawText' cause' =>
    exact .inl ⟨_, _, _, _, _, rfl, rfl⟩
  | _ => exact .inr ⟨fun _ _ _ => by simp, fun _ _ _ => by simp⟩

end PyExn.Alike

/-- What becomes of an HTTP error, from what is read of the response. -/
theorem exceptionFailure_httpStatus (status : Int) (body : Option Json) :
    exceptionFailure (.httpStatus status body) =
      if saysOutage body then failure "upstream_unavailable" (saysRetryable body)
      else if status = 429 then failure "quota_exceeded"
      else failure "upstream_unavailable" (decide (500 ≤ status)) := by
  rw [exceptionFailure, saysOutage, saysRetryable]
  cases responseDetail body <;> rfl

/-- Exceptions alike fail alike. -/
theorem PyExn.Alike.exceptionFailure {e e' : PyExn} (h : e.Alike e') :
    Native.exceptionFailure e = Native.exceptionFailure e' := by
  cases h with
  | httpStatus status houtage hretry =>
    -- of a response only the status and the two facts are read
    rw [exceptionFailure_httpStatus, exceptionFailure_httpStatus, houtage, hretry]
  | _ => rfl

/-- Exceptions alike that end a job end it with one failure. -/
theorem PyExn.Alike.jobFailure {e e' : PyExn} (h : e.Alike e') :
    Native.jobFailure e = Native.jobFailure e' := by
  cases h with
  | httpStatus status houtage hretry =>
    exact (PyExn.Alike.httpStatus status houtage hretry).exceptionFailure
  | _ => rfl

/-- Computations that come to the same, or raise exceptions alike. -/
abbrev SameResult {α : Type} : Except PyExn α → Except PyExn α → Prop :=
  ExceptRel PyExn.Alike Eq

/-- A computation comes to the same as itself. -/
theorem SameResult.refl {α : Type} (x : Except PyExn α) : SameResult x x :=
  ExceptRel.of_eq PyExn.Alike.same (fun _ => rfl) rfl

/-! ### Callees that answer alike -/

/-- The hub gives the same answers and raises exceptions alike. -/
structure Hub.Alike (h h' : Hub) : Prop where
  weather : ∀ province city dateStart dateEnd,
    SameResult (h.fetchWeather province city dateStart dateEnd)
      (h'.fetchWeather province city dateStart dateEnd)
  search : ∀ call province city mobility keyword,
    SameResult (h.searchPlaces call province city mobility keyword)
      (h'.searchPlaces call province city mobility keyword)
  reviews : ∀ i query display,
    SameResult (h.fetchReviews i query display) (h'.fetchReviews i query display)
  filter : ∀ lat lng mobility candidates,
    SameResult (h.filterMobilityRadius lat lng mobility candidates)
      (h'.filterMobilityRadius lat lng mobility candidates)
  score : ∀ pois dayPopMax,
    SameResult (h.scoreIndoorBonus pois dayPopMax) (h'.scoreIndoorBonus pois dayPopMax)
  dwell : ∀ places, SameResult (h.estimateDwell places) (h'.estimateDwell places)
  first : h.firstFailure = h'.firstFailure

/-- The same prompt, or the same one with the feedback on an exception alike. -/
inductive SamePrompt : String → String → Prop where
  | same (prompt : String) : SamePrompt prompt prompt
  | corrective (prompt cause rawText cause' rawText' : String) :
      SamePrompt (correctivePrompt prompt cause rawText) (correctivePrompt prompt cause' rawText')

/-- The model gives the same answers and raises exceptions alike. -/
def Ask.Alike {α : Type} (ask ask' : Ask α) : Prop :=
  ∀ n prompt prompt' system, SamePrompt prompt prompt' →
    (ask n prompt system).1 = (ask' n prompt' system).1 ∧
      SameResult (ask n prompt system).2 (ask' n prompt' system).2

/-- The model gives the same selections and reasons and raises exceptions alike. -/
structure Gemini.Alike (g g' : Gemini) : Prop where
  selection : Ask.Alike g.selection g'.selection
  reasons : Ask.Alike g.reasons g'.reasons

/-! ### Jobs of another name -/

/-- The same state of a job of another name. -/
def AgentState.withJob (s : AgentState) (jobId : String) : AgentState := { s with jobId := jobId }

/-- The same state but for the name of the job. -/
def SameState (jobId : String) (s s' : AgentState) : Prop := s' = s.withJob jobId

/-- A job fails whatever it is called. -/
@[simp] theorem AgentState.failed_withJob (s : AgentState) (jobId : String) :
    (s.withJob jobId).failed = s.failed := rfl

/-- A node in lockstep with another one. -/
def NodeAlike (jobId : String) (f f' : AgentState → Except PyExn AgentState) : Prop :=
  ∀ s, ExceptRel PyExn.Alike (SameState jobId) (f s) (f' (s.withJob jobId))

/-- A node that only hands the job's name on. -/
theorem NodeAlike.of_map {jobId : String} {f f' : AgentState → Except PyExn AgentState}
    (h : ∀ s, f' (s.withJob jobId) = (f s).map (·.withJob jobId)) : NodeAlike jobId f f' := by
  intro s
  rw [h s]
  cases f s with
  | ok t => exact .ok rfl
  | error e => exact .error (.same e)

variable {env : Env} {hub : Hub} {gemini : Gemini} {jobId : String}

/-! ### Input and weather -/

/-- Parsing does not read the name of the job. -/
theorem parseInput_alike : NodeAlike jobId parseInput parseInput := by
  refine .of_map fun s => ?_
  unfold parseInput
  dsimp only [AgentState.withJob]
  repeat' split
  -- each branch sets the same fields of both states
  all_goals rfl

/-- The warning of missing days does not read the name of the job. -/
theorem warnMissingForecastDays_withJob (pf : Platform) (weather : Json) (s : AgentState) :
    warnMissingForecastDays pf weather (s.withJob jobId) =
      (warnMissingForecastDays pf weather s).withJob jobId := by
  unfold warnMissingForecastDays
  dsimp only [AgentState.withJob]
  repeat' split
  all_goals rfl

/-- The weather, or the warning that there is none, is the same. -/
theorem fetchWeather_alike (hhub : env.hub.Alike hub) :
    NodeAlike jobId (fetchWeather env) (fetchWeather { env with hub := hub, gemini := gemini }) := by
  intro s
  have hcall := hhub.weather s.request.province s.request.city s.request.date.dateStart
    s.request.date.dateEnd
  unfold fetchWeather
  rw [AgentState.failed_withJob]
  split
  · -- a failed state is handed on
    exact .ok rfl
  · -- the hub is asked the same and answers alike
    dsimp only [AgentState.withJob]
    generalize env.hub.fetchWeather s.request.province s.request.city s.request.date.dateStart
      s.request.date.dateEnd = answer at hcall ⊢
    generalize hub.fetchWeather s.request.province s.request.city s.request.date.dateStart
      s.request.date.dateEnd = answer' at hcall ⊢
    cases hcall with
    | ok hsame =>
      subst hsame
      exact .ok (warnMissingForecastDays_withJob _ _ { s with weather := some _ })
    | error he =>
      dsimp only
      -- the class decides whether the error is caught
      rw [← he.isHttpError]
      split
      · exact .ok rfl
      · exact .error he

/-- The plan is made of the weather and the dates alone. -/
theorem planStrategy_alike :
    NodeAlike jobId (planStrategy env) (planStrategy { env with hub := hub, gemini := gemini }) := by
  refine .of_map fun s => ?_
  unfold planStrategy
  rw [AgentState.failed_withJob]
  split
  · rfl
  · dsimp only [AgentState.withJob]
    cases dailyPops env.platform s.weather s.request.date.dateStart (numDays s.request).toNat <;> rfl

/-! ### Places the user picked -/

/-- The places the user picked are looked up with one outcome. -/
theorem verifyFrom_alike (hhub : env.hub.Alike hub) (req : AgentRequest) (i : Nat)
    (given : List SelectedPlace) : SameResult (verifyFrom env req i given)
      (verifyFrom { env with hub := hub, gemini := gemini } req i given) := by
  induction given generalizing i with
  | nil => exact .ok rfl
  | cons g rest ih =>
    rw [verifyFrom, verifyFrom]
    -- one search for each place, the rest by induction
    refine (hhub.search _ _ _ _ _).bind fun response _ hsame => ?_
    subst hsame
    refine (SameResult.refl (responsePlaces response)).bind fun candidates _ hsame => ?_
    subst hsame
    refine (SameResult.refl (findMatch env.platform i g candidates)).bind fun found _ hsame => ?_
    subst hsame
    cases found with
    | none => exact .ok rfl
    | some place =>
      refine (ih (i + 1)).bind fun places _ hsame => ?_
      subst hsame
      exact SameResult.refl _

/-- What a step found out, and the state of the other job. -/
def SameFound {β : Type} (jobId : String) (r r' : β × AgentState) : Prop :=
  r' = (r.1, r.2.withJob jobId)

/-- The places are verified with one outcome, or fail with one failure. -/
theorem verifySelectedPlaces_alike (hhub : env.hub.Alike hub) (s : AgentState)
    (selected : List SelectedPlace) : ExceptRel PyExn.Alike (SameFound jobId)
      (verifySelectedPlaces env s selected)
      (verifySelectedPlaces { env with hub := hub, gemini := gemini } (s.withJob jobId) selected) := by
  have hverify : SameResult (verifyFrom env s.request 0 selected)
      (verifyFrom { env with hub := hub, gemini := gemini } s.request 0 selected) :=
    verifyFrom_alike hhub s.request 0 selected
  unfold verifySelectedPlaces
  dsimp only [AgentState.withJob]
  -- only the outcome of the searches matters from here on
  generalize verifyFrom env s.request 0 selected = verified at hverify ⊢
  generalize verifyFrom { env with hub := hub, gemini := gemini } s.request 0 selected = verified'
    at hverify ⊢
  cases hverify with
  | ok hsame =>
    subst hsame
    split <;> first
      | exact .ok rfl
      | rename_i h; cases h
  | error he =>
    dsimp only
    -- an error of the hub fails the job, any other is passed on
    rw [← he.failsVerification]
    split
    · rw [he.exceptionFailure]
      exact .ok rfl
    · exact .error he

/-- The places of a route are loaded with one outcome. -/
theorem loadGivenPlaces_alike (hhub : env.hub.Alike hub) : NodeAlike jobId (loadGivenPlaces env)
    (loadGivenPlaces { env with hub := hub, gemini := gemini }) := by
  intro s
  unfold loadGivenPlaces
  rw [AgentState.failed_withJob]
  split
  · -- a failed state is handed on
    exact .ok rfl
  · rw [show (s.withJob jobId).request = s.request from rfl]
    split
    · exact .ok rfl
    · -- no place given, or all of them looked up
      have hverify : ExceptRel PyExn.Alike (SameFound jobId) _ _ :=
        @verifySelectedPlaces_alike env hub gemini jobId hhub
          { s with selectionPath := some "route" } s.request.given
      refine hverify.bind fun r r' hr => ?_
      subst hr
      exact .ok rfl

/-! ### Candidates -/

/-- What `asyncio.gather` raises is one of the failures, if there is any; which one is
    `n`. -/
theorem gather_eq {α : Type} (n : Nat) (results : List (Except PyExn α)) :
    gather n results =
      ((results.filterMap failureOf)[n % (results.filterMap failureOf).length]?).elim
        (.ok (results.filterMap Except.toOption)) .error := by
  unfold gather
  dsimp only
  generalize hfail : List.filterMap _ results = failures
  have hsame : failures = results.filterMap failureOf := by
    rw [← hfail]
    exact List.filterMap_congr fun r _ => by cases r <;> rfl
  rw [← hsame]
  split <;> rename_i h <;> rw [h] <;> rfl

/-- Calls alike fail in the same places, with exceptions alike. -/
theorem failures_alike {α : Type} {results results' : List (Except PyExn α)}
    (h : List.Forall₂ SameResult results results') :
    List.Forall₂ PyExn.Alike (results.filterMap failureOf) (results'.filterMap failureOf) := by
  induction h with
  | nil => exact .nil
  | cons hr _ ih =>
    cases hr with
    | ok _ => exact ih
    -- a failure stands for a failure
    | error he => exact .cons he ih

/-- Calls alike return the same values. -/
theorem values_alike {α : Type} {results results' : List (Except PyExn α)}
    (h : List.Forall₂ SameResult results results') :
    results.filterMap Except.toOption = results'.filterMap Except.toOption := by
  induction h with
  | nil => rfl
  | cons hr _ ih =>
    cases hr with
    | ok hsame =>
      subst hsame
      exact congrArg (_ :: ·) ih
    | error _ => exact ih

/-- Of failures alike the same one comes first. -/
theorem gather_alike {α : Type} {results results' : List (Except PyExn α)} (n : Nat)
    (h : List.Forall₂ SameResult results results') : SameResult (gather n results) (gather n results') := by
  obtain ⟨hlen, hget⟩ := List.forall₂_iff_get.mp (failures_alike h)
  rw [gather_eq, gather_eq, values_alike h, ← hlen]
  by_cases hn : n % (results.filterMap failureOf).length < (results.filterMap failureOf).length
  · rw [List.getElem?_eq_getElem hn, List.getElem?_eq_getElem (hlen ▸ hn)]
    -- the same one of the failures is raised
    exact .error (hget _ hn (hlen ▸ hn))
  · rw [List.getElem?_eq_none (not_lt.mp hn), List.getElem?_eq_none (hlen ▸ not_lt.mp hn)]
    -- there are none, and all values are returned
    exact .ok rfl

/-- The searches for the themes come to the same, one by one. -/
theorem searchThemes_alike (hhub : env.hub.Alike hub) (req : AgentRequest) :
    List.Forall₂ SameResult (searchThemes env req)
      (searchThemes { env with hub := hub, gemini := gemini } req) := by
  unfold searchThemes
  rw [List.forall₂_map_left_iff, List.forall₂_map_right_iff, List.forall₂_same]
  exact fun x _ => hhub.search _ _ _ _ _

/-- The candidates of the search are the same, or the search fails alike. -/
theorem searchPlaces_alike (hhub : env.hub.Alike hub) : NodeAlike jobId (searchPlaces env)
    (searchPlaces { env with hub := hub, gemini := gemini }) := by
  intro s
  have hthemes : List.Forall₂ SameResult (searchThemes env s.request)
      (searchThemes { env with hub := hub, gemini := gemini } s.request) :=
    searchThemes_alike hhub s.request
  have hgather := gather_alike env.hub.firstFailure hthemes
  unfold searchPlaces
  rw [AgentState.failed_withJob]
  split
  · exact .ok rfl
  · dsimp only [AgentState.withJob]
    rw [← hhub.first]
    generalize gather env.hub.firstFailure (searchThemes env s.request) = results at hgather ⊢
    generalize gather env.hub.firstFailure
      (searchThemes { env with hub := hub, gemini := gemini } s.request) = results' at hgather ⊢
    cases hgather with
    | ok hsame =>
      -- the same responses are merged
      subst hsame
      dsimp only
      split
      · refine (SameResult.refl _).bind fun candidates _ hsame => ?_
        subst hsame
        split <;> exact .ok rfl
      · exact .ok rfl
    | error he =>
      -- which failure comes first, and how it is told, is the same
      dsimp only
      rw [← he.isHttpError, ← he.isValueError, he.exceptionFailure]
      split
      · exact .ok rfl
      · exact .error he

/-- The hub's filter leaves the same candidates, or is skipped alike. -/
theorem rulesFilter_alike (hhub : env.hub.Alike hub) : NodeAlike jobId (rulesFilter env)
    (rulesFilter { env with hub := hub, gemini := gemini }) := by
  intro s
  unfold rulesFilter
  rw [AgentState.failed_withJob]
  split
  · exact .ok rfl
  · -- the question is made of the candidates and the request
    refine ExceptRel.bind (SameResult.refl (filterQuery s)) fun query _ hsame => ?_
    subst hsame
    cases query with
    | none => exact .ok rfl
    | some q =>
      obtain ⟨lat, lng, mobility, candidates⟩ := q
      -- both hubs are asked the same
      have hcall := hhub.filter lat lng mobility candidates
      dsimp only
      generalize env.hub.filterMobilityRadius lat lng mobility candidates = answer at hcall ⊢
      generalize hub.filterMobilityRadius lat lng mobility candidates = answer' at hcall ⊢
      cases hcall with
      | ok hsame =>
        subst hsame
        refine (SameResult.refl _).bind fun filtered _ hsame => ?_
        subst hsame
        split <;> exact .ok rfl
      | error he =>
        dsimp only
        -- what the node forgives goes by the class
        rw [← he.degradesRules]
        split
        · exact .ok rfl
        · exact .error he

/-- The hub's scores rank the candidates the same way. -/
theorem scoreAndRank_alike (hhub : env.hub.Alike hub) : NodeAlike jobId (scoreAndRank env)
    (scoreAndRank { env with hub := hub, gemini := gemini }) := by
  intro s
  unfold scoreAndRank
  rw [AgentState.failed_withJob]
  split
  · exact .ok rfl
  · rw [show (s.withJob jobId).candidates = s.candidates from rfl,
      show (s.withJob jobId).grounded = s.grounded from rfl,
      show (s.withJob jobId).request = s.request from rfl,
      show dayPopMax (s.withJob jobId) = dayPopMax s from rfl]
    by_cases hnone : s.candidates.getD [] = [] ∨ s.grounded.getD false = false
    · -- there is nothing to rank
      rw [if_pos hnone, if_pos hnone]
      exact .ok rfl
    · rw [if_neg hnone, if_neg hnone]
      -- the day's forecast and the places to be scored are the state's own
      refine ExceptRel.bind (SameResult.refl (dayPopMax s)) fun popMax _ hsame => ?_
      subst hsame
      refine ExceptRel.bind (SameResult.refl (poisOf env s.request (s.candidates.getD [])))
        fun pois _ hsame => ?_
      subst hsame
      split
      · exact .ok rfl
      · -- the only word from the hub; the rest is the state's
        have hcall := hhub.score pois popMax
        generalize env.hub.scoreIndoorBonus pois popMax = answer at hcall ⊢
        generalize hub.scoreIndoorBonus pois popMax = answer' at hcall ⊢
        cases hcall with
        | ok hsame =>
          subst hsame
          refine (SameResult.refl _).bind fun entries _ hsame => ?_
          subst hsame
          refine (SameResult.refl (scoresOf entries)).bind fun scores _ hsame => ?_
          subst hsame
          split
          · exact .ok rfl
          · refine (SameResult.refl _).bind fun ranked _ hsame => ?_
            subst hsame
            exact .ok rfl
        | error he =>
          dsimp only
          -- what the node forgives goes by the class
          rw [← he.degradesRules]
          split
          · exact .ok rfl
          · exact .error he

/-! ### Route and timeline -/

/-- The route is computed from the places alone. -/
theorem recommendRoute_alike : NodeAlike jobId (recommendRoute env)
    (recommendRoute { env with hub := hub, gemini := gemini }) := by
  intro s
  unfold recommendRoute
  rw [AgentState.failed_withJob]
  split
  · exact .ok rfl
  · dsimp only [AgentState.withJob]
    split
    · -- no places: `KeyError` for both
      exact .error (.same _)
    · exact .ok rfl
    · -- legs are computed, without asking anyone
      refine ExceptRel.bind (SameResult.refl (rebuildLegs env.platform { s with legs := some [] } _))
        fun legs _ hsame => ?_
      subst hsame
      exact .ok rfl

/-- The warnings of a timeline do not read the name of the job. -/
theorem timelineWarnings_withJob (s : AgentState) :
    timelineWarnings (s.withJob jobId) = (timelineWarnings s).withJob jobId := by
  unfold timelineWarnings
  dsimp only [AgentState.withJob, AgentState.addWarning]
  split <;> rfl

/-- The timeline is the same, or left out alike. -/
theorem buildTimeline_alike (hhub : env.hub.Alike hub) : NodeAlike jobId (buildTimeline env)
    (buildTimeline { env with hub := hub, gemini := gemini }) := by
  intro s
  have hcall := hhub.dwell (dwellRequest (s.places.getD []))
  unfold buildTimeline
  rw [AgentState.failed_withJob, timelineWarnings_withJob]
  dsimp only [AgentState.withJob]
  split
  · exact .ok rfl
  split
  · exact .ok rfl
  · generalize env.hub.estimateDwell (dwellRequest (s.places.getD [])) = answer at hcall ⊢
    generalize hub.estimateDwell (dwellRequest (s.places.getD [])) = answer' at hcall ⊢
    cases hcall with
    | ok hsame =>
      subst hsame
      -- the stays are read from the same answer
      refine (SameResult.refl (dwellEstimates env.platform (s.places.getD []) _)).bind
        fun dwells _ hsame => ?_
      subst hsame
      exact .ok rfl
    | error he =>
      -- the failures the node forgives are told apart by kind
      dsimp only
      rw [← he.isHttpError, ← he.isValueError]
      split
      · exact .ok rfl
      · exact .error he

/-! ### Trimming asks nobody -/

/-- Legs go by the places. -/
theorem rebuildLegs_withJob (s : AgentState) (order : List Int) :
    rebuildLegs env.platform (s.withJob jobId) order = rebuildLegs env.platform s order := rfl

/-- The state a trial looks at differs in the name of the job alone. -/
theorem probeState_withJob (s : AgentState) (order dropped : List Int) :
    probeState env.platform (s.withJob jobId) order dropped =
      (probeState env.platform s order dropped).map (·.withJob jobId) := by
  unfold probeState
  dsimp only
  rw [rebuildLegs_withJob]
  cases rebuildLegs env.platform s (order.filter (· ∉ dropped)) <;> rfl

/-- A trial timeline is the same. -/
theorem planTimelineWith_alike (s : AgentState) (stay : Int → Int) (order dropped : List Int) :
    planTimelineWith { env with hub := hub, gemini := gemini } (s.withJob jobId) stay order dropped =
      planTimelineWith env s stay order dropped := by
  unfold planTimelineWith
  rw [probeState_withJob]
  cases probeState env.platform s order dropped <;> rfl

/-- Trimming a day drops the same places and cuts the same stays. -/
theorem trimDay_alike (s : AgentState) (order : List Int) (day : Int) (rounds : Nat)
    (dayOrder : List Int) (stay : Int → Int) (dropped : List Int) :
    trimDay { env with hub := hub, gemini := gemini } (s.withJob jobId) order day rounds dayOrder stay
        dropped = trimDay env s order day rounds dayOrder stay dropped := by
  induction rounds generalizing dayOrder stay dropped with
  | zero => rfl
  | succ rounds ih =>
    -- one round: the same timeline is tried, and the same place dropped
    rw [trimDay, trimDay, planTimelineWith_alike,
      show lastUnpinned (s.withJob jobId) dayOrder = lastUnpinned s dayOrder from rfl]
    simp only [ih]

/-- Trimming the days, one after the other, drops the same places. -/
theorem trimDays_alike (s : AgentState) (order days : List Int) (stay : Int → Int)
    (dropped : List Int) :
    trimDays { env with hub := hub, gemini := gemini } (s.withJob jobId) order days stay dropped =
      trimDays env s order days stay dropped := by
  induction days generalizing stay dropped with
  | nil => rfl
  | cons day days ih =>
    rw [trimDays, trimDays,
      show dayOrderOf (s.withJob jobId) order dropped day = dayOrderOf s order dropped day from rfl]
    simp only [trimDay_alike, ih]

/-- The places that are dropped leave the same itinerary. -/
theorem dropPlaces_withJob (s : AgentState) (dropped : List Int) :
    dropPlaces env.platform (s.withJob jobId) dropped =
      (dropPlaces env.platform s dropped).map (·.withJob jobId) := by
  unfold dropPlaces
  split
  · rfl
  · -- the job is not among what the legs are built from
    let order := (s.visitOrder.getD []).filter (· ∉ dropped)
    let left := { s with
      places := some ((s.places.getD []).filter fun p => p.placeId ∉ dropped)
      visitOrder := some order }
    show (rebuildLegs env.platform left order >>= fun legs =>
        .ok ({ left with legs := some legs }.withJob jobId)) =
      (rebuildLegs env.platform left order >>= fun legs =>
        .ok { left with legs := some legs }).map (·.withJob jobId)
    cases rebuildLegs env.platform left order <;> rfl

/-- Trimming a timeline comes to the same. -/
theorem trimTimeline_alike (s : AgentState) (overflowed : List Int) :
    trimTimeline { env with hub := hub, gemini := gemini } (s.withJob jobId) overflowed =
      (trimTimeline env s overflowed).map (·.withJob jobId) := by
  unfold trimTimeline
  rw [show (s.withJob jobId).visitOrder = s.visitOrder from rfl,
    show (s.withJob jobId).timeline = s.timeline from rfl]
  dsimp only
  -- each of the three steps does not look at the job's number
  rw [trimDays_alike]
  cases trimDays env s (s.visitOrder.getD []) overflowed
      (fun pid => ((s.timeline.getD []).lookup pid).elim 0 (·.stayMinutes)) [] with
  | error e => rfl
  | ok trimmed =>
    obtain ⟨stay, dropped⟩ := trimmed
    show (dropPlaces env.platform (s.withJob jobId) dropped >>= _) =
      (dropPlaces env.platform s dropped >>= _).map _
    rw [dropPlaces_withJob]
    cases dropPlaces env.platform s dropped with
    | error e => rfl
    | ok left =>
      show (planTimelineWith { env with hub := hub, gemini := gemini } (left.withJob jobId) stay
          ((s.visitOrder.getD []).filter (· ∉ dropped)) dropped >>= _) =
        (planTimelineWith env left stay ((s.visitOrder.getD []).filter (· ∉ dropped)) dropped >>= _).map _
      rw [planTimelineWith_alike]
      cases planTimelineWith env left stay ((s.visitOrder.getD []).filter (· ∉ dropped)) dropped with
      | error e => rfl
      | ok layout =>
        dsimp only [bind, Except.bind]
        split <;> rfl

/-- The trip is fitted, or fails to fit, the same way. -/
theorem fitTimeBudget_alike : NodeAlike jobId (fitTimeBudget env)
    (fitTimeBudget { env with hub := hub, gemini := gemini }) := by
  refine .of_map fun s => ?_
  unfold fitTimeBudget
  dsimp only
  rw [AgentState.failed_withJob, trimTimeline_alike,
    show (s.withJob jobId).timelineOverflowDays = s.timelineOverflowDays from rfl,
    show (s.withJob jobId).request = s.request from rfl,
    show (s.withJob jobId).pinnedContentIds = s.pinnedContentIds from rfl]
  split
  · rfl
  -- nothing to fit, or nothing of the job in what is fitted
  by_cases hfits : env.settings.timelineEnabled = false ∨ s.timelineOverflowDays.getD [] = []
  · rw [if_pos hfits, if_pos hfits]
    rfl
  · rw [if_neg hfits, if_neg hfits]
    split <;> rfl

/-- The finished itinerary differs in the name of the job alone. -/
theorem buildPayload_alike : NodeAlike jobId buildPayload buildPayload := by
  refine .of_map fun s => ?_
  unfold buildPayload
  rw [AgentState.failed_withJob]
  dsimp only [AgentState.withJob]
  repeat' split
  all_goals rfl

end MapServiceAgent.Native

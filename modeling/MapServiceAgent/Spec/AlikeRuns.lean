import MapServiceAgent.Spec.AlikeNodes
import MapServiceAgent.Spec.RunJobCorrect

/-!
# Runs when exceptions differ in their texts

The nodes that call the model stay in lockstep as well: a retry is asked for
with another text, and that it is a retry is all that shows of it. So the whole
graph does, and the coroutine of a job.

## Key results

- `callStructured_alike`: one structured call, the retry included
- `runNode_alike`, `ainvoke_alike`: each node and a run of the graph
-/

namespace MapServiceAgent.Native

variable {env : Env} {hub : Hub} {gemini : Gemini} {jobId : String} {j j' : Job} {α : Type}

/-- The same job under another name, as far as the nodes look. -/
structure SameJob (jobId : String) (j j' : Job) : Prop where
  state : SameState jobId j.state j'.state
  invoked : j.invocations.length = j'.invocations.length

/-- Two endings alike. -/
def SameRun (jobId : String) (r r' : Except PyExn α × Job) : Prop :=
  SameResult r.1 r'.1 ∧ SameJob jobId r.2 r'.2

/-- Alike, two runs both answer the same or both fail alike. -/
theorem SameRun.ok_or_error {r r' : Except PyExn α × Job} (h : SameRun jobId r r') :
    (∃ a j j', r = (.ok a, j) ∧ r' = (.ok a, j') ∧ SameJob jobId j j') ∨
    ∃ e e' j j', r = (.error e, j) ∧ r' = (.error e', j') ∧ e.Alike e' ∧ SameJob jobId j j' := by
  obtain ⟨answer, j⟩ := r
  obtain ⟨answer', j'⟩ := r'
  obtain ⟨hanswer, hj⟩ := h
  dsimp only at hanswer hj
  cases hanswer with
  | ok hsame =>
    subst hsame
    -- alike, an answer is the same answer
    exact .inl ⟨_, j, j', rfl, rfl, hj⟩
  | error he => exact .inr ⟨_, _, j, j', rfl, rfl, he, hj⟩

/-- Jobs that are the same stay so when their states change the same way. -/
theorem SameJob.setState (hj : SameJob jobId j j') (s : AgentState) :
    SameJob jobId { j with state := s } { j' with state := s.withJob jobId } :=
  ⟨rfl, hj.invoked⟩

/-- A node on the state. -/
theorem NodeAlike.ofState {f f' : AgentState → Except PyExn AgentState} (h : NodeAlike jobId f f')
    (hj : SameJob jobId j j') : SameRun jobId (JobM.ofState f j) (JobM.ofState f' j') := by
  have hf := h j.state
  rw [← hj.state] at hf
  unfold JobM.ofState
  generalize f j.state = r at hf ⊢
  generalize f' j'.state = r' at hf ⊢
  cases hf with
  | ok hs =>
    subst hs
    exact ⟨.ok rfl, hj.setState _⟩
  | error he => exact ⟨.error he, hj⟩

/-! ### Structured calls -/

section Calls

variable {ask ask' : Ask α} {schema : ResponseSchema} {maxCalls : Int}
  {system prompt prompt' : String}

variable (schema system) in
/-- One answer of the model: it is the same, it cost the same, and it counts in both
    jobs. -/
theorem generateStructured_alike (hask : ask.Alike ask') (hprompt : SamePrompt prompt prompt')
    (usage : List Json) (hj : SameJob jobId j j') :
    SameResult (generateStructured ask schema system prompt usage j).1.1
      (generateStructured ask' schema system prompt' usage j').1.1 ∧
    (generateStructured ask schema system prompt usage j).1.2 =
      (generateStructured ask' schema system prompt' usage j').1.2 ∧
    SameJob jobId (generateStructured ask schema system prompt usage j).2
      (generateStructured ask' schema system prompt' usage j').2 := by
  have hanswer := hask j.invocations.length prompt prompt' system hprompt
  unfold generateStructured
  rw [← hj.invoked]
  -- a corrective prompt quotes what failed, so only the answers are compared
  generalize ask j.invocations.length prompt system = r at hanswer ⊢
  generalize ask' j.invocations.length prompt' system = r' at hanswer ⊢
  refine ⟨hanswer.2, congrArg (usage ++ ·) hanswer.1, hj.state, ?_⟩
  dsimp only
  rw [List.length_append, List.length_append, hj.invoked]
  rfl

variable (schema maxCalls system prompt) in
/-- A call and its retry come to the same and cost the same. -/
theorem callWithRetry_alike (hask : ask.Alike ask') (hj : SameJob jobId j j') :
    SameResult (callWithRetry ask schema maxCalls system prompt j).1.1
      (callWithRetry ask' schema maxCalls system prompt j').1.1 ∧
    (callWithRetry ask schema maxCalls system prompt j).1.2 =
      (callWithRetry ask' schema maxCalls system prompt j').1.2 ∧
    SameJob jobId (callWithRetry ask schema maxCalls system prompt j).2
      (callWithRetry ask' schema maxCalls system prompt j').2 := by
  have hfirst := generateStructured_alike schema system hask (.same prompt) [] hj
  unfold callWithRetry
  generalize generateStructured ask schema system prompt [] j = r at hfirst ⊢
  generalize generateStructured ask' schema system prompt [] j' = r' at hfirst ⊢
  obtain ⟨⟨answer, usage⟩, j₁⟩ := r
  obtain ⟨⟨answer', usage'⟩, j₁'⟩ := r'
  obtain ⟨hanswer, rfl, hj₁⟩ := hfirst
  dsimp only at hanswer hj₁ ⊢
  cases hanswer with
  | ok hsame =>
    subst hsame
    -- the first answer was good
    exact ⟨.ok rfl, rfl, hj₁⟩
  | error he =>
    obtain ⟨truncated, rawText, cause, rawText', cause', rfl, rfl⟩ | ⟨hother, hother'⟩ :=
      he.structuredOutput_or
    · -- both jobs have spent the same, so both retry or neither does
      have hused : j₁'.state.callsUsed = j₁.state.callsUsed := by
        rw [hj₁.state]
        rfl
      dsimp only
      rw [hused]
      split
      · -- the budget of the job is spent
        exact ⟨.error he, rfl, hj₁⟩
      · refine generateStructured_alike schema system hask (.corrective _ _ _ _ _) usage ⟨?_, hj₁.invoked⟩
        dsimp only
        rw [hj₁.state]
        rfl
    · split
      · rename_i heq
        cases heq
        -- only a bad answer is asked for again
        exact absurd rfl (hother _ _ _)
      · split
        · rename_i heq
          cases heq
          exact absurd rfl (hother' _ _ _)
        · exact ⟨.error he, rfl, hj₁⟩

variable (schema maxCalls system prompt) in
/-- One structured call, the retry included. -/
theorem callStructured_alike (hask : ask.Alike ask') (hj : SameJob jobId j j') :
    SameRun jobId (callStructured ask schema maxCalls system prompt j)
      (callStructured ask' schema maxCalls system prompt j') := by
  unfold callStructured consumeBudget
  rw [show j'.state.callsUsed = j.state.callsUsed from by rw [hj.state]; rfl]
  -- both have spent as many calls, so both are refused or neither is
  by_cases hspent : maxCalls ≤ j.state.callsUsed
  · rw [if_pos hspent, if_pos hspent]
    exact ⟨.error (.same _), hj⟩
  · rw [if_neg hspent, if_neg hspent, show j'.state.spendCall = j.state.spendCall.withJob jobId from by
      rw [hj.state]; rfl]
    have hcall := callWithRetry_alike schema maxCalls system prompt hask
      (hj.setState j.state.spendCall)
    dsimp only
    generalize callWithRetry ask schema maxCalls system prompt _ = r at hcall ⊢
    generalize callWithRetry ask' schema maxCalls system prompt _ = r' at hcall ⊢
    obtain ⟨⟨answer, usage⟩, j₁⟩ := r
    obtain ⟨⟨answer', usage'⟩, j₁'⟩ := r'
    obtain ⟨hanswer, rfl, hj₁⟩ := hcall
    -- what it cost is added to both ledgers
    refine ⟨hanswer, ?_, hj₁.invoked⟩
    dsimp only
    rw [hj₁.state]
    unfold AgentState.addUsage
    split <;> rfl

end Calls

/-! ### Selecting places -/

/-- The loop over the candidates keeps the same reviews, or raises alike. -/
theorem fetchReviewsLoop_alike (gemini : Gemini) (hhub : env.hub.Alike hub) (req : AgentRequest) (limit used : Nat)
    (reviews : List (PyKey × List String)) (candidates : List Json) :
    SameResult (fetchReviewsLoop env req limit used reviews candidates)
      (fetchReviewsLoop { env with hub := hub, gemini := gemini } req limit used reviews candidates) := by
  induction candidates generalizing limit used reviews with
  | nil => exact .ok rfl
  | cons c cs ih =>
    unfold fetchReviewsLoop
    cases limit with
    | zero => exact .ok rfl
    | succ limit =>
      cases c with
      | obj m =>
        dsimp only
        split
        · -- no name or no identifier: nothing is asked
          exact ih _ _ _
        · -- the same question, answered alike
          have hcall := hhub.reviews used (reviewQuery env.platform req (dictGet m "name"))
            env.settings.reviewsDisplay
          generalize env.hub.fetchReviews used _ _ = answer at hcall ⊢
          generalize hub.fetchReviews used _ _ = answer' at hcall ⊢
          cases hcall with
          | ok hsame =>
            subst hsame
            refine (SameResult.refl (snippetsFromResponse _ _)).bind fun snippets _ hsame => ?_
            subst hsame
            split
            · exact ih _ _ _
            · refine ExceptRel.bind (SameResult.refl _) fun k _ hsame => ?_
              subst hsame
              -- the snippets are kept under the identifier
              exact ih _ _ _
          | error he =>
            dsimp only
            -- both runs handle the failure, or neither
            rw [← he.isException]
            split
            · exact ih _ _ _
            · exact .error he
      | _ => exact ih _ _ _

/-- The reviews a selection is given, and the calls they took, are the same. -/
theorem enrichWithReviews_alike (gemini : Gemini) (jobId : String) (hhub : env.hub.Alike hub) (candidates : List Json)
    (s : AgentState) : ExceptRel PyExn.Alike (SameFound jobId) (enrichWithReviews env candidates s)
      (enrichWithReviews { env with hub := hub, gemini := gemini } candidates (s.withJob jobId)) := by
  unfold enrichWithReviews
  rw [show (s.withJob jobId).grounded = s.grounded from rfl]
  dsimp only
  split
  · -- the reviews fetched are the same, and so is what is written down of them
    have hloop := fetchReviewsLoop_alike gemini hhub s.request
      (min env.settings.reviewsMaxPlaces (reviewsBudgetLeft env s)).toNat (s.reviewsFetchUsed.getD 0)
      [] candidates
    refine hloop.bind fun r _ hsame => ?_
    subst hsame
    obtain ⟨reviews, used⟩ := r
    refine .ok ?_
    dsimp only
    rw [show (s.withJob jobId).reviewsFetchUsed = s.reviewsFetchUsed from rfl]
    unfold SameFound
    dsimp only
    repeat' split
    all_goals rfl
  · exact .ok rfl

/-- The places the model's answer makes of the candidates are the same. -/
theorem takeSelection_alike (candidates : List Json) (selections : List PlaceSelection) :
    NodeAlike jobId (takeSelection env candidates selections)
      (takeSelection { env with hub := hub, gemini := gemini } candidates selections) := by
  intro s
  unfold takeSelection
  refine (SameResult.refl (placesFromSelections env.platform candidates 0 _)).bind
    fun places _ hsame => ?_
  subst hsame
  split <;> exact .ok rfl

/-- A selection asks the model the same and takes the same places. -/
theorem selectPlaces_alike (hhub : env.hub.Alike hub) (hgemini : env.gemini.Alike gemini)
    (candidates : List Json) (hj : SameJob jobId j j') : SameRun jobId (selectPlaces env candidates j)
      (selectPlaces { env with hub := hub, gemini := gemini } candidates j') := by
  have hreviews := enrichWithReviews_alike gemini jobId hhub candidates j.state
  rw [← hj.state] at hreviews
  unfold selectPlaces
  generalize enrichWithReviews env candidates j.state = r at hreviews ⊢
  generalize enrichWithReviews _ candidates j'.state = r' at hreviews ⊢
  cases hreviews with
  | error he => exact ⟨.error he, hj⟩
  | ok hfound =>
    rename_i found _
    obtain ⟨reviews, s⟩ := found
    subst hfound
    dsimp only
    -- the prompts read nothing of the job's own number
    rw [show (s.withJob jobId).request = s.request from rfl,
      show (s.withJob jobId).weather = s.weather from rfl,
      show (s.withJob jobId).plan = s.plan from rfl]
    cases buildSelectionPrompt env.platform s.request (s.weather.getD (.obj [])) candidates reviews
      s.plan with
    | error e => exact ⟨.error (.same e), hj.setState s⟩
    | ok prompts =>
      obtain ⟨system, prompt⟩ := prompts
      dsimp only
      have hcall := callStructured_alike .placesSelection env.settings.geminiMaxCallsPerRequest
        system prompt hgemini.selection (hj.setState s)
      rcases hcall.ok_or_error with
        ⟨answer, j₁, j₁', hr, hr', hj₁⟩ | ⟨e, e', j₁, j₁', hr, hr', he, hj₁⟩
      · rw [hr, hr']
        -- the model has answered
        exact (takeSelection_alike candidates _).ofState hj₁
      · rw [hr, hr']
        dsimp only
        -- a failure becomes the same failed state
        rw [← he.isException, ← he.exceptionFailure, hj₁.state]
        split
        · exact ⟨.ok rfl, hj₁.setState _⟩
        · exact ⟨.error he, hj₁⟩

/-- What is selected beside the pinned places is the same. -/
theorem selectFresh_alike (hhub : env.hub.Alike hub) (hgemini : env.gemini.Alike gemini)
    (hj : SameJob jobId j j') : SameRun jobId (selectFresh env j)
      (selectFresh { env with hub := hub, gemini := gemini } j') := by
  unfold selectFresh
  rw [hj.state]
  dsimp only
  rw [show (j.state.withJob jobId).candidates = j.state.candidates from rfl,
    show (j.state.withJob jobId).request = j.state.request from rfl,
    show candidateLimit { env with hub := hub, gemini := gemini } j.state.request =
      candidateLimit env j.state.request from rfl]
  split
  · -- no candidates: the same failure for both
    exact ⟨.ok rfl, hj.setState _⟩
  · -- what is capped does not name the job
    cases capCandidates (j.state.candidates.getD []) (candidateLimit env j.state.request) with
    | error e => exact ⟨.error (.same e), hj⟩
    | ok capped => exact selectPlaces_alike hhub hgemini capped (hj.setState _)

/-- The places a request pins are verified with one outcome. -/
theorem verifiedPins_alike (gemini : Gemini) (jobId : String) (hhub : env.hub.Alike hub) (s : AgentState) :
    ExceptRel PyExn.Alike (SameFound jobId) (verifiedPins env s)
      (verifiedPins { env with hub := hub, gemini := gemini } (s.withJob jobId)) := by
  unfold verifiedPins
  rw [show (s.withJob jobId).request = s.request from rfl]
  refine (SameResult.refl (pinnedPlaces s.request)).bind fun pinned _ hsame => ?_
  subst hsame
  split
  · -- without pins nothing is looked up
    exact .ok rfl
  · exact verifySelectedPlaces_alike hhub s s.request.given

/-- Pinning does not read the name of the job. -/
theorem pinPlaces_withJob (s : AgentState) (pinned : List Place) :
    pinPlaces (s.withJob jobId) pinned =
      ((pinPlaces s pinned).1, (pinPlaces s pinned).2.withJob jobId) := by
  unfold pinPlaces remainingTargets
  dsimp only [AgentState.withJob]
  repeat' split
  all_goals rfl

/-- Merging the pinned and the selected places does not read the name of the job. -/
theorem finishPlaces_withJob (pinned : List Place) (s : AgentState) :
    finishPlaces pinned (s.withJob jobId) = (finishPlaces pinned s).withJob jobId := by
  unfold finishPlaces
  rw [AgentState.failed_withJob]
  split
  · rfl
  · dsimp only [AgentState.withJob]
    repeat' split
    all_goals rfl

/-- The places of a trip are the same, or are not found alike. -/
theorem recommendPlaces_alike (hhub : env.hub.Alike hub) (hgemini : env.gemini.Alike gemini)
    (hj : SameJob jobId j j') : SameRun jobId (recommendPlaces env j)
      (recommendPlaces { env with hub := hub, gemini := gemini } j') := by
  have hpins := verifiedPins_alike gemini jobId hhub j.state
  rw [← hj.state] at hpins
  unfold recommendPlaces
  rw [show j'.state.failed = j.state.failed from by rw [hj.state]; rfl]
  split
  · -- a failed state is handed on
    exact ⟨.ok rfl, hj⟩
  · generalize verifiedPins env j.state = r at hpins ⊢
    generalize verifiedPins _ j'.state = r' at hpins ⊢
    cases hpins with
    | error he => exact ⟨.error he, hj⟩
    | ok hfound =>
      rename_i found _
      obtain ⟨pinned, s⟩ := found
      subst hfound
      dsimp only
      -- the pins first, then what is selected next to them
      rw [AgentState.failed_withJob, pinPlaces_withJob]
      split
      · -- the verification has failed the job
        exact ⟨.ok rfl, hj.setState s⟩
      · cases pinPlaces s pinned with
        | mk goesOn s₁ =>
          cases goesOn with
          -- the pins are all there is room for
          | false => exact ⟨.ok rfl, hj.setState _⟩
          | true =>
            have hfresh := selectFresh_alike hhub hgemini (hj.setState s₁)
            dsimp only
            generalize selectFresh env _ = r at hfresh ⊢
            generalize selectFresh _ _ = r' at hfresh ⊢
            obtain ⟨out, j₁⟩ := r
            obtain ⟨out', j₁'⟩ := r'
            obtain ⟨hout, hj₁⟩ := hfresh
            dsimp only at hout hj₁
            cases hout with
            | error he => exact ⟨.error he, hj₁⟩
            | ok _ =>
              refine ⟨.ok rfl, ?_⟩
              dsimp only
              rw [hj₁.state, finishPlaces_withJob]
              exact hj₁.setState _

/-! ### Reasons -/

/-- The model is asked for the same reasons. -/
theorem askReasons_alike (hub : Hub) (hgemini : env.gemini.Alike gemini) (targets : List Place)
    (suffix : String) (hj : SameJob jobId j j') : SameRun jobId (askReasons env targets suffix j)
      (askReasons { env with hub := hub, gemini := gemini } targets suffix j') := by
  unfold askReasons
  rw [hj.state]
  dsimp only
  rw [show (j.state.withJob jobId).request = j.state.request from rfl,
    show (j.state.withJob jobId).weather = j.state.weather from rfl,
    show (j.state.withJob jobId).reviews = j.state.reviews from rfl]
  cases buildReasonPrompt env.platform j.state.request (j.state.weather.getD (.obj [])) targets
    (j.state.reviews.getD []) with
  | error e => exact ⟨.error (.same e), hj⟩
  | ok prompts => exact callStructured_alike _ _ _ _ hgemini.reasons hj

/-- Writing the reasons down does not read the name of the job. -/
theorem finishReasons_withJob (reasons : List (Int × String)) (clothing : String) (s : AgentState) :
    finishReasons reasons clothing (s.withJob jobId) =
      (finishReasons reasons clothing s).withJob jobId := by
  unfold finishReasons
  dsimp only
  rw [show (s.withJob jobId).places = s.places from rfl]
  by_cases hall : withoutReason reasons (s.places.getD []) = []
  · rw [if_pos hall, if_pos hall]
    -- every place has its reason
    split <;> rfl
  · rw [if_neg hall, if_neg hall]
    -- some place goes without
    split <;> rfl

/-- The second question for reasons comes to the same. -/
theorem completeReasons_alike (hgemini : env.gemini.Alike gemini) (reasons : List (Int × String))
    (clothing : String) (hj : SameJob jobId j j') :
    SameRun jobId (completeReasons env reasons clothing j)
      (completeReasons { env with hub := hub, gemini := gemini } reasons clothing j') := by
  unfold completeReasons
  dsimp only
  rw [show j'.state.places = j.state.places from by rw [hj.state]; rfl,
    show j'.state.callsUsed = j.state.callsUsed from by rw [hj.state]; rfl,
    show finishReasons reasons clothing j'.state = (finishReasons reasons clothing j.state).withJob jobId
      from by rw [hj.state, finishReasons_withJob]]
  split
  · -- all places have reasons, or no call is left
    exact ⟨.ok rfl, hj.setState _⟩
  · -- some place is left without a reason: the model is asked again
    have hask := askReasons_alike hub hgemini
      (withoutReason reasons (j.state.places.getD [])) coverageFeedback hj
    rcases hask.ok_or_error with
      ⟨answer, j₁, j₁', hr, hr', hj₁⟩ | ⟨e, e', j₁, j₁', hr, hr', he, hj₁⟩
    · rw [hr, hr']
      refine ⟨.ok rfl, ?_⟩
      dsimp only
      rw [hj₁.state, finishReasons_withJob]
      exact hj₁.setState _
    · rw [hr, hr']
      dsimp only
      -- a failed retry leaves what the first answer gave
      rw [← he.isException, hj₁.state, finishReasons_withJob]
      split
      · exact ⟨.ok rfl, hj₁.setState _⟩
      · exact ⟨.error he, hj₁⟩

/-- The reasons of a trip are the same, or fall back alike. -/
theorem llmReason_alike (hgemini : env.gemini.Alike gemini) (hj : SameJob jobId j j') :
    SameRun jobId (llmReason env j) (llmReason { env with hub := hub, gemini := gemini } j') := by
  unfold llmReason
  dsimp only
  rw [show j'.state.places = j.state.places from by rw [hj.state]; rfl,
    show j'.state.failed = j.state.failed from by rw [hj.state]; rfl]
  split
  · -- failed, or no places
    exact ⟨.ok rfl, hj⟩
  · -- a trip to give reasons for
    have hask := askReasons_alike hub hgemini (j.state.places.getD []) "" hj
    rcases hask.ok_or_error with
      ⟨answer, j₁, j₁', hr, hr', hj₁⟩ | ⟨e, e', j₁, j₁', hr, hr', he, hj₁⟩
    · rw [hr, hr']
      exact completeReasons_alike hgemini _ _ hj₁
    · rw [hr, hr']
      dsimp only
      rw [← he.isException, ← he.degradedReasonOf, hj₁.state]
      split
      · exact ⟨.ok rfl, hj₁.setState _⟩
      · exact ⟨.error he, hj₁⟩

/-! ### The graph -/

/-- The payload of a state differs in the name of the job alone. -/
theorem donePayload_withJob (s : AgentState) :
    donePayload (s.withJob jobId) = (donePayload s).map ({ · with jobId := jobId }) := by
  unfold donePayload
  rw [AgentState.failed_withJob]
  split
  · -- a failure
    rfl
  · dsimp only [AgentState.withJob]
    cases s.places with
    | none => rfl
    | some places =>
      cases s.visitOrder with
      | none => rfl
      | some order => cases s.legs <;> rfl

/-- The last node publishes the same under another name, or raises alike. -/
theorem publishDone_alike (hj : SameJob jobId j j') :
    SameRun jobId (publishDone j) (publishDone j') := by
  have hpayload : donePayload j'.state = (donePayload j.state).map ({ · with jobId := jobId }) := by
    rw [hj.state, donePayload_withJob]
  unfold publishDone
  rw [hpayload]
  cases donePayload j.state with
  | ok p => exact ⟨.ok rfl, hj.state, hj.invoked⟩
  | error e => exact ⟨.error (.same e), hj⟩

/-- Each node stays in lockstep. -/
theorem runNode_alike (hhub : env.hub.Alike hub) (hgemini : env.gemini.Alike gemini)
    (n : AgentNode) (hj : SameJob jobId j j') : SameRun jobId (runNode env n j)
      (runNode { env with hub := hub, gemini := gemini } n j') := by
  cases n with
  | parseInput => exact parseInput_alike.ofState hj
  | fetchWeather => exact (fetchWeather_alike hhub).ofState hj
  | planStrategy => exact planStrategy_alike.ofState hj
  | loadGivenPlaces => exact (loadGivenPlaces_alike hhub).ofState hj
  | searchPlaces => exact (searchPlaces_alike hhub).ofState hj
  | rulesFilter => exact (rulesFilter_alike hhub).ofState hj
  | scoreAndRank => exact (scoreAndRank_alike hhub).ofState hj
  | recommendPlaces => exact recommendPlaces_alike hhub hgemini hj
  | recommendRoute => exact recommendRoute_alike.ofState hj
  | buildTimeline => exact (buildTimeline_alike hhub).ofState hj
  | fitTimeBudget => exact fitTimeBudget_alike.ofState hj
  | llmReason => exact llmReason_alike hgemini hj
  | buildPayload => exact buildPayload_alike.ofState hj
  | publishDone => exact publishDone_alike hj

/-- Where the graph goes next does not depend on the name of the job. -/
theorem edge_withJob (s : AgentState) (n : AgentNode) : edge (s.withJob jobId) n = edge s n := by
  cases n <;> rfl

/-- Runs of the graph stay in lockstep. -/
theorem ainvoke_alike (hhub : env.hub.Alike hub) (hgemini : env.gemini.Alike gemini)
    (jobId jobId' : String) (req : AgentRequest) :
    SameRun jobId' (ainvoke env jobId req)
      (ainvoke { env with hub := hub, gemini := gemini } jobId' req) := by
  have hnodes : ∀ n j j', SameJob jobId' j j' → SameRun jobId' ((agentGraph env).node n j)
      ((agentGraph { env with hub := hub, gemini := gemini }).node n j') :=
    fun n _ _ hj => runNode_alike hhub hgemini n hj
  have hstart : SameJob jobId' (Job.start jobId req) (Job.start jobId' req) := ⟨rfl, rfl⟩
  have hruns := StateGraph.run_rel hnodes
    (fun n j j' hj => ((congrArg (edge · n) hj.state).trans (edge_withJob j.state n)).symm) 13
    .parseInput hstart
  rw [ainvoke_run, ainvoke_run] at hruns
  cases hruns with
  | some hrun => exact hrun

/-! ### The coroutine -/

/-- The same message of a job of another name. -/
def SamePayload (jobId : String) (p p' : JobDonePayload) : Prop := p' = { p with jobId := jobId }

/-- Coroutines of a job in lockstep. -/
abbrev SameCo {β : Type} (jobId : String) (m m' : Co PyExn JobDonePayload β) : Prop :=
  Co.Rel PyExn.Alike (SamePayload jobId) Eq m m'

/-- What the nodes come to is the same payload, or an exception alike. -/
theorem comeTo_alike (hhub : env.hub.Alike hub) (hgemini : env.gemini.Alike gemini)
    (jobId jobId' : String) (req : AgentRequest) :
    Co.Rel PyExn.Alike Eq (SamePayload jobId') (comeTo env jobId req)
      (comeTo { env with hub := hub, gemini := gemini } jobId' req) := by
  have hrun := ainvoke_alike hhub hgemini jobId jobId' req
  unfold comeTo
  generalize ainvoke env jobId req = r at hrun ⊢
  generalize ainvoke _ jobId' req = r' at hrun ⊢
  obtain ⟨out, j⟩ := r
  obtain ⟨out', j'⟩ := r'
  obtain ⟨hout, hj⟩ := hrun
  dsimp only at hout hj
  -- the graph raises alike, or comes to states alike
  cases hout with
  | error he => exact .raise he
  | ok _ =>
    dsimp only
    rw [hj.state, donePayload_withJob]
    cases donePayload j.state with
    | ok p => exact .ret rfl
    | error e => exact .raise (.same e)

/-- A timeout is told apart from the exceptions of the job itself in both. -/
theorem waitFor_alike {m m' : Co PyExn JobDonePayload Unit} (h : SameCo jobId m m') :
    SameCo jobId (waitFor m) (waitFor m') := by
  refine Co.Rel.tryCatch h fun e e' he => ?_
  cases he with
  | same e => cases e <;> exact .raise (.same _)
  | structuredOutput truncated rawText cause rawText' cause' =>
    -- none of the others is a timeout
    exact .raise (.structuredOutput _ _ _ _ _)
  | geminiQuota code code' => exact .raise (.geminiQuota _ _)
  | httpStatus status houtage hretry => exact .raise (.httpStatus status houtage hretry)

/-- What is published of an error is the same. -/
theorem onJobError_alike (jobId jobId' : String) {e e' : PyExn} (he : e.Alike e') :
    SameCo jobId' (onJobError jobId e) (onJobError jobId' e') := by
  -- exceptions that are alike are one failure
  have hpublish : SameCo jobId' (publishFailure jobId (jobFailure e))
      (publishFailure jobId' (jobFailure e')) := by
    rw [← he.jobFailure]
    -- an error of the publisher itself is logged only
    refine Co.Rel.tryCatch (.send rfl) fun x x' hx => ?_
    rw [← hx.isException]
    split
    · exact .ret rfl
    · exact .raise hx
  refine hpublish.bind fun _ _ _ => ?_
  rw [← he.isException]
  split
  · exact .ret rfl
  · exact .raise he

/-- The coroutine of a job stays in lockstep when its nodes do. -/
theorem runJobCo_alike (jobId jobId' : String) {nodes nodes' : Co PyExn Empty JobDonePayload}
    (h : Co.Rel PyExn.Alike Eq (SamePayload jobId') nodes nodes') (writes : Nat) :
    SameCo jobId' (runJobCo jobId nodes writes) (runJobCo jobId' nodes' writes) := by
  have hgraph : SameCo jobId' (ainvokeCo nodes writes) (ainvokeCo nodes' writes) :=
    -- the nodes, the message, and the writes after it
    Co.Rel.bind (Co.Rel.lift h) fun p p' hp =>
      (Co.Rel.send hp).bind fun _ _ _ => (Co.Rel.awaits (N := Eq) writes).lift
  exact (waitFor_alike hgraph).tryCatch fun _ _ he => onJobError_alike jobId jobId' he

end MapServiceAgent.Native

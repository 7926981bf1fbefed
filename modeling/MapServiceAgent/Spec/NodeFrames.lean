import MapServiceAgent.ForStd.Except
import MapServiceAgent.Native.AgentGraph

/-!
# What each node writes

A frame lemma for each node: the new state is the old one but for the listed
keys. Whatever a proof needs about the other keys follows by projection.
-/

namespace MapServiceAgent.Native

variable {env : Env} {s s' : AgentState}

/-! ### Nodes on the state -/

/-- What `parse_input` writes: the error it finds in the request, if any. -/
theorem parseInput_frame (h : parseInput s = .ok s') :
    s' = { s with error := s'.error, code := s'.code, retryable := s'.retryable } := by
  unfold parseInput at h
  dsimp only at h
  repeat' split at h
  -- each branch but the raising ones sets these keys or none
  all_goals first
    | cases h; rfl
    | cases h

/-- What `fetch_weather` writes: the forecast and its warnings. -/
theorem fetchWeather_frame (h : fetchWeather env s = .ok s') :
    s' = { s with weather := s'.weather, warnings := s'.warnings } := by
  unfold fetchWeather warnMissingForecastDays at h
  dsimp only at h
  repeat' split at h
  all_goals first
    | cases h; rfl
    | cases h

/-- What `plan_strategy` writes: the plan. -/
theorem planStrategy_frame (h : planStrategy env s = .ok s') :
    s' = { s with plan := s'.plan } := by
  unfold planStrategy at h
  split at h
  · -- a failed state is handed on
    cases h
    rfl
  · obtain ⟨pops, -, h⟩ := bind_eq_ok.mp h
    cases h
    rfl

/-- What the verification of the user's places writes: the failure to find one. -/
theorem verifySelectedPlaces_frame {selected : List SelectedPlace} {places : List Place}
    (h : verifySelectedPlaces env s selected = .ok (places, s')) :
    s' = { s with error := s'.error, code := s'.code, retryable := s'.retryable } := by
  unfold verifySelectedPlaces at h
  repeat' split at h
  all_goals first
    | cases h; rfl
    | cases h

/-- What `load_given_places` writes: the places of the route, or why there are none. -/
theorem loadGivenPlaces_frame (h : loadGivenPlaces env s = .ok s') :
    s' = { s with
      selectionPath := s'.selectionPath, places := s'.places, grounded := s'.grounded
      error := s'.error, code := s'.code, retryable := s'.retryable } := by
  unfold loadGivenPlaces at h
  split at h
  · -- failed, or no places given: nothing is verified
    cases h
    rfl
  · split at h
    · cases h
      rfl
    · obtain ⟨⟨places, s₁⟩, hverify, h⟩ := bind_eq_ok.mp h
      rw [verifySelectedPlaces_frame hverify] at h
      cases h
      rfl

/-- What `search_places` writes: the candidates, or why there are none. -/
theorem searchPlaces_frame (h : searchPlaces env s = .ok s') :
    s' = { s with
      candidates := s'.candidates, grounded := s'.grounded
      error := s'.error, code := s'.code, retryable := s'.retryable } := by
  unfold searchPlaces at h
  dsimp only at h
  repeat' split at h
  all_goals first
    | cases h; rfl
    | cases h
    -- the responses of the hub are merged
    | obtain ⟨candidates, -, h⟩ := bind_eq_ok.mp h
      split at h <;> cases h <;> rfl

/-- What `rules_filter` writes: the candidates that are left. -/
theorem rulesFilter_frame (h : rulesFilter env s = .ok s') :
    s' = { s with candidates := s'.candidates, grounded := s'.grounded } := by
  unfold rulesFilter at h
  split at h
  · cases h
    rfl
  · obtain ⟨query, -, h⟩ := bind_eq_ok.mp h
    repeat' split at h
    all_goals first
      | cases h; rfl
      | cases h
      -- the hub has answered
      | obtain ⟨filtered, -, h⟩ := bind_eq_ok.mp h
        split at h <;> cases h <;> rfl

/-- What `score_and_rank` writes: the scores, and the candidates in their order. -/
theorem scoreAndRank_frame (h : scoreAndRank env s = .ok s') :
    s' = { s with scores := s'.scores, candidates := s'.candidates } := by
  unfold scoreAndRank at h
  dsimp only at h
  split at h
  · cases h
    rfl
  · split at h
    · cases h
      rfl
    · obtain ⟨popMax, -, h⟩ := bind_eq_ok.mp h
      obtain ⟨pois, -, h⟩ := bind_eq_ok.mp h
      -- no rules, no points of interest, no answer: nothing is scored
      repeat' split at h
      all_goals first
        | cases h; rfl
        | cases h
        | skip
      obtain ⟨entries, -, h⟩ := bind_eq_ok.mp h
      obtain ⟨scores, -, h⟩ := bind_eq_ok.mp h
      split at h
      · cases h
        rfl
      · -- there are scores to rank by
        obtain ⟨ranked, -, h⟩ := bind_eq_ok.mp h
        cases h
        rfl

/-- What `recommend_route` writes: the order of the visits and the legs between them. -/
theorem recommendRoute_frame (h : recommendRoute env s = .ok s') :
    s' = { s with
      visitOrder := s'.visitOrder, legs := s'.legs
      error := s'.error, code := s'.code, retryable := s'.retryable } := by
  unfold recommendRoute at h
  dsimp only at h
  repeat' split at h
  all_goals first
    | cases h; rfl
    | cases h
    -- the places are there to be ordered
    | obtain ⟨legs, -, h⟩ := bind_eq_ok.mp h
      cases h
      rfl

/-- Besides its timeline a trip gets warnings. -/
theorem timelineWarnings_frame (s : AgentState) :
    timelineWarnings s = { s with warnings := (timelineWarnings s).warnings } := by
  unfold timelineWarnings
  dsimp only
  split <;> rfl

/-- What `build_timeline` writes: the timeline, how it came out, and its warnings. -/
theorem buildTimeline_frame (h : buildTimeline env s = .ok s') :
    s' = { s with
      warnings := s'.warnings, timeline := s'.timeline, timelineStatus := s'.timelineStatus
      timelineOverflowDays := s'.timelineOverflowDays } := by
  unfold buildTimeline at h
  rw [timelineWarnings_frame] at h
  dsimp only at h
  repeat' split at h
  all_goals first
    | cases h; rfl
    | cases h
    -- the stays are estimated and laid out
    | obtain ⟨dwells, -, h⟩ := bind_eq_ok.mp h
      cases h
      rfl

/-- Dropping places changes the itinerary only. -/
theorem dropPlaces_frame {pf : Platform} {dropped : List Int}
    (h : dropPlaces pf s dropped = .ok s') :
    s' = { s with places := s'.places, visitOrder := s'.visitOrder, legs := s'.legs } := by
  unfold dropPlaces at h
  split at h
  · -- there is none to drop
    cases h
    rfl
  · obtain ⟨legs, -, h⟩ := bind_eq_ok.mp h
    cases h
    rfl

/-- What trimming writes: the itinerary, its timeline, or the failure to fit. -/
theorem trimTimeline_frame {overflowed : List Int} (h : trimTimeline env s overflowed = .ok s') :
    s' = { s with
      places := s'.places, visitOrder := s'.visitOrder, legs := s'.legs
      timeline := s'.timeline, timelineStatus := s'.timelineStatus
      timelineOverflowDays := s'.timelineOverflowDays, warnings := s'.warnings
      error := s'.error, code := s'.code, retryable := s'.retryable } := by
  unfold trimTimeline at h
  obtain ⟨⟨stay, dropped⟩, -, h⟩ := bind_eq_ok.mp h
  obtain ⟨s₁, hdrop, h⟩ := bind_eq_ok.mp h
  obtain ⟨layout, -, h⟩ := bind_eq_ok.mp h
  rw [dropPlaces_frame hdrop] at h
  -- the days fit now, or the job fails
  split at h <;> cases h <;> rfl

/-- What `fit_time_budget` writes. -/
theorem fitTimeBudget_frame (h : fitTimeBudget env s = .ok s') :
    s' = { s with
      places := s'.places, visitOrder := s'.visitOrder, legs := s'.legs
      timeline := s'.timeline, timelineStatus := s'.timelineStatus
      timelineOverflowDays := s'.timelineOverflowDays, warnings := s'.warnings
      error := s'.error, code := s'.code, retryable := s'.retryable } := by
  unfold fitTimeBudget at h
  dsimp only at h
  repeat' split at h
  all_goals first
    | cases h; rfl
    -- some day runs over, and may be trimmed
    | exact trimTimeline_frame h

/-- What `build_payload` writes: the places with their reasons and times. -/
theorem buildPayload_frame (h : buildPayload s = .ok s') : s' = { s with places := s'.places } := by
  unfold buildPayload at h
  dsimp only at h
  repeat' split at h
  all_goals
    cases h
    rfl

/-! ### Nodes on the job -/

section JobFrames

variable {α : Type} {j j' : Job} {out : Except PyExn Unit}

/-- A node on the state either returns a new one, or raises and leaves the job as it was. -/
theorem ofState_frame {f : AgentState → Except PyExn AgentState}
    (h : JobM.ofState f j = (out, j')) :
    (out = .ok () ∧ ∃ s', f j.state = .ok s' ∧ j' = { j with state := s' }) ∨
      (∃ e, out = .error e ∧ f j.state = .error e ∧ j' = j) := by
  simp only [JobM.ofState] at h
  cases hf : f j.state with
  | ok s' =>
    simp only [hf, Prod.mk.injEq] at h
    exact .inl ⟨h.1.symm, s', rfl, h.2.symm⟩
  | error e =>
    simp only [hf, Prod.mk.injEq] at h
    exact .inr ⟨e, h.1.symm, rfl, h.2.symm⟩

/-- The usage of a call goes to the ledger. -/
theorem addUsage_frame (s : AgentState) (usage : List Json) :
    s.addUsage usage = { s with llmUsage := (s.addUsage usage).llmUsage } := by
  unfold AgentState.addUsage
  split <;> rfl

/-- A call and its retry touch the log of invocations and the count of calls only. -/
theorem callWithRetry_frame {ask : Ask α} {schema : ResponseSchema} {maxCalls : Int}
    {system prompt : String} {answer : Except PyExn α × List Json}
    (h : callWithRetry ask schema maxCalls system prompt j = (answer, j')) :
    j' = { j with
      state := { j.state with llmCallsUsed := j'.state.llmCallsUsed }
      invocations := j'.invocations } := by
  unfold callWithRetry at h
  cases hfirst : generateStructured ask schema system prompt [] j with
  | mk r j₁ =>
    -- one call only adds an invocation
    have hj₁ : j₁ = { j with invocations := j₁.invocations } := by
      cases hfirst
      rfl
    simp only [hfirst] at h
    split at h
    · split at h
      · -- a bad answer, and no call left for a retry
        cases h
        rw [hj₁]
      · cases h
        rw [hj₁]
        rfl
    · cases h
      rw [hj₁]

/-- What a structured call touches: the log, the count and the ledger. -/
theorem callStructured_frame {ask : Ask α} {schema : ResponseSchema} {maxCalls : Int}
    {system prompt : String} {answer : Except PyExn α}
    (h : callStructured ask schema maxCalls system prompt j = (answer, j')) :
    j' = { j with
      state := { j.state with
        llmCallsUsed := j'.state.llmCallsUsed, llmUsage := j'.state.llmUsage }
      invocations := j'.invocations } := by
  unfold callStructured consumeBudget at h
  split at h
  · -- the budget is spent before the call
    cases h
    rfl
  · rename_i s₁ hspend
    split at hspend
    · exact nomatch hspend
    · cases hspend
      -- within the budget: the call is counted before it is made
      cases hcall : callWithRetry ask schema maxCalls system prompt
        { j with state := j.state.spendCall } with
      | mk r j₁ =>
        have hretry := callWithRetry_frame hcall
        rw [hcall] at h
        cases h
        dsimp only
        rw [addUsage_frame, hretry]
        rfl

/-- What the reviews of a selection write: themselves and how many calls they took. -/
theorem enrichWithReviews_frame {candidates : List Json}
    {reviews : List (PyKey × List String)} (h : enrichWithReviews env candidates s = .ok (reviews, s')) :
    s' = { s with reviews := s'.reviews, reviewsFetchUsed := s'.reviewsFetchUsed } := by
  unfold enrichWithReviews at h
  split at h
  · obtain ⟨⟨revs, used⟩, -, h⟩ := bind_eq_ok.mp h
    cases h
    repeat' split
    all_goals rfl
  · cases h
    rfl

/-- What taking the model's answer writes: the places, or the failure to select any. -/
theorem takeSelection_frame {candidates : List Json} {selections : List PlaceSelection}
    (h : takeSelection env candidates selections s = .ok s') :
    s' = { s with
      places := s'.places, error := s'.error, code := s'.code, retryable := s'.retryable } := by
  unfold takeSelection at h
  obtain ⟨places, -, h⟩ := bind_eq_ok.mp h
  split at h <;> cases h <;> rfl

/-- What `_select_places` writes. -/
theorem selectPlaces_frame {candidates : List Json}
    (h : selectPlaces env candidates j = (out, j')) :
    j' = { j with
      state := { j.state with
        reviews := j'.state.reviews, reviewsFetchUsed := j'.state.reviewsFetchUsed
        llmCallsUsed := j'.state.llmCallsUsed, llmUsage := j'.state.llmUsage
        places := j'.state.places, error := j'.state.error, code := j'.state.code
        retryable := j'.state.retryable }
      invocations := j'.invocations } := by
  unfold selectPlaces at h
  split at h
  · -- the reviews have raised
    cases h
    rfl
  · rename_i reviews s₁ henrich
    have henrich' := enrichWithReviews_frame henrich
    split at h
    · cases h
      rw [henrich']
    · rename_i system prompt hprompt
      split at h
      · -- a failure that is caught writes the error fields
        rename_i e j₁ hanswer
        have hcall := callStructured_frame hanswer
        rw [hcall, henrich'] at h
        split at h <;> cases h <;> rfl
      · rename_i envelope j₁ hanswer
        have hcall := callStructured_frame hanswer
        -- the answer is taken, or that raises
        rcases ofState_frame h with ⟨-, s₂, htake, rfl⟩ | ⟨e, -, -, rfl⟩
        · rw [takeSelection_frame htake, hcall, henrich']
        · rw [hcall, henrich']

/-- What verifying the pinned places writes: the failure to find one. -/
theorem verifiedPins_frame {pinned : List Place} (h : verifiedPins env s = .ok (pinned, s')) :
    s' = { s with error := s'.error, code := s'.code, retryable := s'.retryable } := by
  unfold verifiedPins at h
  obtain ⟨kept, -, h⟩ := bind_eq_ok.mp h
  split at h
  · cases h
    rfl
  · -- there are pins to verify
    exact verifySelectedPlaces_frame h

/-- Pinning writes which places are pinned and what is left of the plan. -/
theorem pinPlaces_frame (s : AgentState) (pinned : List Place) :
    (pinPlaces s pinned).2 = { s with
      pinnedContentIds := (pinPlaces s pinned).2.pinnedContentIds
      plan := (pinPlaces s pinned).2.plan } := by
  unfold pinPlaces remainingTargets
  dsimp only
  repeat' split
  all_goals rfl

/-- What selecting beside the pinned places writes. -/
theorem selectFresh_frame (h : selectFresh env j = (out, j')) :
    j' = { j with
      state := { j.state with
        candidates := j'.state.candidates, selectionPath := j'.state.selectionPath
        reviews := j'.state.reviews, reviewsFetchUsed := j'.state.reviewsFetchUsed
        llmCallsUsed := j'.state.llmCallsUsed, llmUsage := j'.state.llmUsage
        places := j'.state.places, error := j'.state.error, code := j'.state.code
        retryable := j'.state.retryable }
      invocations := j'.invocations } := by
  unfold selectFresh at h
  dsimp only at h
  split at h
  · -- no candidates: the job fails
    cases h
    rfl
  · split at h
    · cases h
      rfl
    · -- the candidates are capped before the model sees them
      rw [selectPlaces_frame h]

/-- Merging the pinned places writes the places, or the failure to have any. -/
theorem finishPlaces_frame (pinned : List Place) (s : AgentState) :
    finishPlaces pinned s = { s with
      places := (finishPlaces pinned s).places, error := (finishPlaces pinned s).error
      code := (finishPlaces pinned s).code, retryable := (finishPlaces pinned s).retryable } := by
  unfold finishPlaces
  dsimp only
  repeat' split
  all_goals rfl

/-- The ways a run of `recommend_places` goes. -/
inductive RecommendRun (env : Env) (j : Job) : Except PyExn Unit → Job → Prop where
  | failed : j.state.failed = true → RecommendRun env j (.ok ()) j
  | raisedPins {e : PyExn} : verifiedPins env j.state = .error e → RecommendRun env j (.error e) j
  | unverified {pinned : List Place} {s : AgentState} :
      verifiedPins env j.state = .ok (pinned, s) → s.failed = true →
      RecommendRun env j (.ok ()) { j with state := s }
  /-- The pins fill the plan. -/
  | filled {pinned : List Place} {s s₁ : AgentState} :
      verifiedPins env j.state = .ok (pinned, s) → s.failed = false →
      pinPlaces s pinned = (false, s₁) →
      RecommendRun env j (.ok ()) { j with state := { s₁ with places := some pinned } }
  | raised {pinned : List Place} {s s₁ : AgentState} {e : PyExn} {j₁ : Job} :
      verifiedPins env j.state = .ok (pinned, s) → s.failed = false →
      pinPlaces s pinned = (true, s₁) →
      selectFresh env { j with state := s₁ } = (.error e, j₁) → RecommendRun env j (.error e) j₁
  | selected {pinned : List Place} {s s₁ : AgentState} {j₁ : Job} :
      verifiedPins env j.state = .ok (pinned, s) → s.failed = false →
      pinPlaces s pinned = (true, s₁) →
      selectFresh env { j with state := s₁ } = (.ok (), j₁) →
      RecommendRun env j (.ok ()) { j₁ with state := finishPlaces pinned j₁.state }

/-- Every run of `recommend_places` is one of these. -/
theorem recommendPlaces_run (h : recommendPlaces env j = (out, j')) : RecommendRun env j out j' := by
  unfold recommendPlaces at h
  split at h
  · rename_i hfailed
    cases h
    exact .failed hfailed
  · split at h
    · rename_i e hpins
      cases h
      exact .raisedPins hpins
    · rename_i pinned s hpins
      -- the places the user asked for may fill every day
      split at h
      · rename_i hs
        cases h
        exact .unverified hpins hs
      · rename_i hs
        have hs : s.failed = false := by simpa using hs
        split at h
        · rename_i s₁ hpin
          cases h
          exact .filled hpins hs hpin
        · rename_i s₁ hpin
          split at h
          · rename_i e j₁ hfresh
            cases h
            exact .raised hpins hs hpin hfresh
          · rename_i j₁ hfresh
            cases h
            exact .selected hpins hs hpin hfresh

/-- What the pins write, verified and set into the plan. -/
theorem pinned_frame {pinned : List Place} {s₁ : AgentState} {b : Bool}
    (hpins : verifiedPins env s = .ok (pinned, s')) (hpin : pinPlaces s' pinned = (b, s₁)) :
    s₁ = { s with
      pinnedContentIds := s₁.pinnedContentIds, plan := s₁.plan
      error := s₁.error, code := s₁.code, retryable := s₁.retryable } := by
  have h := pinPlaces_frame s' pinned
  rw [hpin] at h
  dsimp only at h
  rw [h, verifiedPins_frame hpins]

/-- What `recommend_places` writes, whichever way it goes. -/
theorem recommendPlaces_frame (h : recommendPlaces env j = (out, j')) :
    j' = { j with
      state := { j.state with
        pinnedContentIds := j'.state.pinnedContentIds, plan := j'.state.plan
        candidates := j'.state.candidates, selectionPath := j'.state.selectionPath
        reviews := j'.state.reviews, reviewsFetchUsed := j'.state.reviewsFetchUsed
        llmCallsUsed := j'.state.llmCallsUsed, llmUsage := j'.state.llmUsage
        places := j'.state.places, error := j'.state.error, code := j'.state.code
        retryable := j'.state.retryable }
      invocations := j'.invocations } := by
  cases recommendPlaces_run h with
  | failed _ => rfl
  | raisedPins _ => rfl
  | unverified hpins _ => rw [verifiedPins_frame hpins]
  | filled hpins _ hpin => rw [pinned_frame hpins hpin]
  | raised hpins _ hpin hfresh => rw [selectFresh_frame hfresh, pinned_frame hpins hpin]
  | selected hpins _ hpin hfresh =>
    rw [finishPlaces_frame, selectFresh_frame hfresh, pinned_frame hpins hpin]

/-- Asking for reasons is one structured call. -/
theorem askReasons_frame {targets : List Place} {suffix : String}
    {answer : Except PyExn ReasonEnvelope} (h : askReasons env targets suffix j = (answer, j')) :
    j' = { j with
      state := { j.state with
        llmCallsUsed := j'.state.llmCallsUsed, llmUsage := j'.state.llmUsage }
      invocations := j'.invocations } := by
  unfold askReasons at h
  dsimp only at h
  split at h
  · -- the prompt could not be built
    cases h
    rfl
  · exact callStructured_frame h

/-- What writing the reasons down touches. -/
theorem finishReasons_frame (reasons : List (Int × String)) (clothing : String) (s : AgentState) :
    finishReasons reasons clothing s = { s with
      degradedReason := (finishReasons reasons clothing s).degradedReason
      reasons := (finishReasons reasons clothing s).reasons
      clothing := (finishReasons reasons clothing s).clothing } := by
  unfold finishReasons
  dsimp only
  repeat' split
  all_goals rfl

/-- What completing the reasons writes. -/
theorem completeReasons_frame {reasons : List (Int × String)} {clothing : String}
    (h : completeReasons env reasons clothing j = (out, j')) :
    j' = { j with
      state := { j.state with
        llmCallsUsed := j'.state.llmCallsUsed, llmUsage := j'.state.llmUsage
        degradedReason := j'.state.degradedReason, reasons := j'.state.reasons
        clothing := j'.state.clothing }
      invocations := j'.invocations } := by
  unfold completeReasons at h
  dsimp only at h
  split at h
  · cases h
    rw [finishReasons_frame]
  · -- some place is left without a reason, so the model is asked again
    split at h
    · rename_i envelope j₁ hanswer
      have hframe := askReasons_frame hanswer
      cases h
      rw [finishReasons_frame, hframe]
    · rename_i e j₁ hanswer
      have hframe := askReasons_frame hanswer
      split at h <;> cases h
      · rw [finishReasons_frame, hframe]
      · -- what is no `Exception` is passed on
        rw [hframe]

/-- What `llm_reason` writes: the reasons, or why they fell back, and the calls. -/
theorem llmReason_frame (h : llmReason env j = (out, j')) :
    j' = { j with
      state := { j.state with
        llmCallsUsed := j'.state.llmCallsUsed, llmUsage := j'.state.llmUsage
        degradedReason := j'.state.degradedReason, reasons := j'.state.reasons
        clothing := j'.state.clothing }
      invocations := j'.invocations } := by
  unfold llmReason at h
  dsimp only at h
  split at h
  · -- failed, or no places: nothing is asked
    cases h
    rfl
  · split at h
    · rename_i e j₁ hanswer
      have hframe := askReasons_frame hanswer
      -- the question has failed, and the reasons fall back
      split at h <;> cases h <;> rw [hframe]
    · -- an answer, which may have to be completed
      rename_i envelope j₁ hanswer
      have hframe := askReasons_frame hanswer
      rw [completeReasons_frame h, hframe]

/-! ### All nodes -/

/-- The nodes that may ask the model. -/
def AgentNode.asksModel : AgentNode → Bool
  | .recommendPlaces | .llmReason => true
  | _ => false

/-- A node on the state keeps what it does not write, whether or not it raises. -/
theorem ofState_keeps {f : AgentState → Except PyExn AgentState} {β : Type} (get : AgentState → β)
    (hf : ∀ s s', f s = .ok s' → get s' = get s) (h : JobM.ofState f j = (out, j')) :
    get j'.state = get j.state ∧ j'.invocations = j.invocations ∧ j'.published = j.published := by
  rcases ofState_frame h with ⟨-, s', hs', rfl⟩ | ⟨e, -, -, rfl⟩
  · exact ⟨hf _ _ hs', rfl, rfl⟩
  · exact ⟨rfl, rfl, rfl⟩

/-- What `publish_done` writes: the message. -/
theorem publishDone_frame (h : publishDone j = (out, j')) :
    j' = { j with published := j'.published } := by
  unfold publishDone at h
  split at h <;> cases h <;> rfl

/-- A node that does not ask the model leaves the ledger, the invocations and
    the request as they are. -/
theorem runNode_quiet {n : AgentNode} (hn : n.asksModel = false) (h : runNode env n j = (out, j')) :
    j'.invocations = j.invocations ∧ j'.state.llmCallsUsed = j.state.llmCallsUsed ∧
      j'.state.request = j.state.request := by
  -- a node on the state only cannot touch the log
  have hstate : ∀ f, JobM.ofState f j = (out, j') → (∀ s s', f s = .ok s' →
      (s'.llmCallsUsed, s'.request) = (s.llmCallsUsed, s.request)) →
      j'.invocations = j.invocations ∧ j'.state.llmCallsUsed = j.state.llmCallsUsed ∧
        j'.state.request = j.state.request := by
    intro f hj hf
    obtain ⟨hget, hinv, -⟩ := ofState_keeps (fun s => (s.llmCallsUsed, s.request)) hf hj
    exact ⟨hinv, congrArg Prod.fst hget, congrArg Prod.snd hget⟩
  cases n with
  | parseInput => exact hstate _ h fun s s' hs => by rw [parseInput_frame hs]
  | fetchWeather => exact hstate _ h fun s s' hs => by rw [fetchWeather_frame hs]
  | planStrategy => exact hstate _ h fun s s' hs => by rw [planStrategy_frame hs]
  | loadGivenPlaces => exact hstate _ h fun s s' hs => by rw [loadGivenPlaces_frame hs]
  | searchPlaces => exact hstate _ h fun s s' hs => by rw [searchPlaces_frame hs]
  | rulesFilter => exact hstate _ h fun s s' hs => by rw [rulesFilter_frame hs]
  | scoreAndRank => exact hstate _ h fun s s' hs => by rw [scoreAndRank_frame hs]
  | recommendRoute => exact hstate _ h fun s s' hs => by rw [recommendRoute_frame hs]
  | buildTimeline => exact hstate _ h fun s s' hs => by rw [buildTimeline_frame hs]
  | fitTimeBudget => exact hstate _ h fun s s' hs => by rw [fitTimeBudget_frame hs]
  | buildPayload => exact hstate _ h fun s s' hs => by rw [buildPayload_frame hs]
  | publishDone =>
    rw [publishDone_frame h]
    exact ⟨rfl, rfl, rfl⟩
  -- the two that ask the model
  | recommendPlaces => exact nomatch hn
  | llmReason => exact nomatch hn

/-- No node writes the request. -/
theorem runNode_request {n : AgentNode} (h : runNode env n j = (out, j')) :
    j'.state.request = j.state.request := by
  cases hn : n.asksModel with
  | false => exact (runNode_quiet hn h).2.2
  | true =>
    -- a node that asks the model has its own frame
    cases n with
    | recommendPlaces => rw [recommendPlaces_frame h]
    | llmReason => rw [llmReason_frame h]
    | _ => exact nomatch hn

/-- Only the last node publishes. -/
theorem runNode_published {n : AgentNode} (hn : n ≠ .publishDone)
    (h : runNode env n j = (out, j')) : j'.published = j.published := by
  have hstate : ∀ f, JobM.ofState f j = (out, j') → j'.published = j.published := fun f hj => by
    rcases ofState_frame hj with ⟨-, s', -, rfl⟩ | ⟨e, -, -, rfl⟩ <;> rfl
  cases n with
  | recommendPlaces => rw [recommendPlaces_frame h]
  | llmReason => rw [llmReason_frame h]
  | publishDone => exact absurd rfl hn
  -- the others only map the state
  | _ => exact hstate _ h

/-- What the two timeline nodes write. -/
abbrev AgentState.timelineKeys (s : AgentState) :
    Option (List (Int × Slot)) × Option TimelineStatus × Option (List Int) :=
  (s.timeline, s.timelineStatus, s.timelineOverflowDays)

/-- No other node writes the timeline. -/
theorem runNode_untimed {n : AgentNode} (hn : n ≠ .buildTimeline) (hn' : n ≠ .fitTimeBudget)
    (h : runNode env n j = (out, j')) : j'.state.timelineKeys = j.state.timelineKeys := by
  -- a node that only maps the state keeps what its frame keeps
  have hstate : ∀ f, JobM.ofState f j = (out, j') →
      (∀ s s', f s = .ok s' → s'.timelineKeys = s.timelineKeys) →
      j'.state.timelineKeys = j.state.timelineKeys := fun f hj hf =>
    (ofState_keeps AgentState.timelineKeys hf hj).1
  cases n with
  | parseInput => exact hstate _ h fun s s' hs => by rw [parseInput_frame hs]
  | fetchWeather => exact hstate _ h fun s s' hs => by rw [fetchWeather_frame hs]
  | planStrategy => exact hstate _ h fun s s' hs => by rw [planStrategy_frame hs]
  | loadGivenPlaces => exact hstate _ h fun s s' hs => by rw [loadGivenPlaces_frame hs]
  | searchPlaces => exact hstate _ h fun s s' hs => by rw [searchPlaces_frame hs]
  | rulesFilter => exact hstate _ h fun s s' hs => by rw [rulesFilter_frame hs]
  | scoreAndRank => exact hstate _ h fun s s' hs => by rw [scoreAndRank_frame hs]
  | recommendPlaces => rw [recommendPlaces_frame h]
  | recommendRoute => exact hstate _ h fun s s' hs => by rw [recommendRoute_frame hs]
  | buildTimeline => exact absurd rfl hn
  | fitTimeBudget => exact absurd rfl hn'
  | llmReason => rw [llmReason_frame h]
  | buildPayload => exact hstate _ h fun s s' hs => by rw [buildPayload_frame hs]
  | publishDone => rw [publishDone_frame h]

/-! ### A failed job -/

/-- `parse_input` is the one node that does not look for an error first. -/
theorem failed_parseInput {s s' : AgentState} (hs : s.failed = true) (h : parseInput s = .ok s') :
    s'.failed = true := by
  unfold parseInput at h
  dsimp only at h
  repeat' split at h
  -- an error found is added, and none is taken away
  all_goals first
    | (cases h; exact hs)
    | (cases h; rfl)
    | cases h

/-- Every other node hands a failed state on as it is. -/
theorem runNode_kept {n : AgentNode} (hn : n ≠ .parseInput) (h : runNode env n j = (out, j'))
    (hj : j.state.failed = true) :
    out = .ok () ∧ j'.state = j.state ∧ j'.invocations = j.invocations := by
  -- every node but the first looks at the error before all else
  have hstate : ∀ f, JobM.ofState f j = (out, j') → f j.state = .ok j.state →
      out = .ok () ∧ j'.state = j.state ∧ j'.invocations = j.invocations := by
    intro f hjob hf
    rw [JobM.ofState, hf] at hjob
    cases hjob
    exact ⟨rfl, rfl, rfl⟩
  cases n with
  | parseInput => exact absurd rfl hn
  | fetchWeather => exact hstate _ h (by rw [fetchWeather, if_pos hj])
  | planStrategy => exact hstate _ h (by rw [planStrategy, if_pos hj])
  | loadGivenPlaces => exact hstate _ h (by rw [loadGivenPlaces, if_pos hj])
  | searchPlaces => exact hstate _ h (by rw [searchPlaces, if_pos hj])
  | rulesFilter => exact hstate _ h (by simp [rulesFilter, hj])
  | scoreAndRank => exact hstate _ h (by simp [scoreAndRank, hj])
  | recommendPlaces =>
    rw [runNode, recommendPlaces, if_pos hj] at h
    cases h
    exact ⟨rfl, rfl, rfl⟩
  | recommendRoute => exact hstate _ h (by rw [recommendRoute, if_pos hj])
  | buildTimeline => exact hstate _ h (by simp [buildTimeline, hj])
  | fitTimeBudget => exact hstate _ h (by simp [fitTimeBudget, hj])
  | llmReason =>
    rw [runNode, llmReason, if_pos (.inl hj)] at h
    cases h
    exact ⟨rfl, rfl, rfl⟩
  | buildPayload => exact hstate _ h (by rw [buildPayload, if_pos hj])
  | publishDone =>
    -- a failure is published, and the state stays
    rw [runNode, publishDone, donePayload, if_pos hj] at h
    cases h
    exact ⟨rfl, rfl, rfl⟩

/-- A failed job asks nothing, and stays failed. -/
theorem runNode_failed {n : AgentNode} (h : runNode env n j = (out, j'))
    (hj : j.state.failed = true) :
    j'.invocations = j.invocations ∧ j'.state.failed = true := by
  by_cases hn : n = .parseInput
  · subst hn
    -- the entry may put another error in place of it
    rcases ofState_frame h with ⟨-, s', hs', rfl⟩ | ⟨e, -, -, rfl⟩
    · exact ⟨rfl, failed_parseInput hj hs'⟩
    · exact ⟨rfl, hj⟩
  · obtain ⟨-, hstate, hinvoked⟩ := runNode_kept hn h hj
    exact ⟨hinvoked, by rw [hstate, hj]⟩

end JobFrames

end MapServiceAgent.Native

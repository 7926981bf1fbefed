import MapServiceAgent.Spec.NodeFrames

/-!
# The budget of model calls

`llm_calls_used` is kept in two places; it is the number of invocations all the
same, after every node of every run.

## Key results

- `callStructured_called`: one, two or no invocations, and when
- `BudgetAt.after`: every node keeps the ledger exact and within the budget
- `budget_holds`: the budget of a whole job
-/

namespace MapServiceAgent.Native

/-- The output of the invocation was cut off. -/
def Invocation.truncated (i : Invocation) : Bool :=
  match i.failure with
  | some (.structuredOutput true _ _) => true
  | _ => false

/-- Of several invocations only the last may have been cut off. -/
def TruncatedLast (invocations : List Invocation) : Prop :=
  ∀ i ∈ invocations.dropLast, i.truncated = false

/-- No invocation was cut off. -/
def NoneTruncated (invocations : List Invocation) : Prop :=
  ∀ i ∈ invocations, i.truncated = false

/-- If none was cut off, none but the last was. -/
theorem NoneTruncated.truncatedLast {invocations : List Invocation}
    (h : NoneTruncated invocations) : TruncatedLast invocations :=
  fun i hi => h i (List.dropLast_subset _ hi)

/-- One more invocation after some that were not cut off. -/
theorem NoneTruncated.concat {invocations : List Invocation} (h : NoneTruncated invocations)
    (i : Invocation) : TruncatedLast (invocations ++ [i]) := by
  intro x hx
  rw [List.dropLast_concat] at hx
  exact h x hx

/-! ### One structured call -/

section Call

variable {α : Type}

/-- The answer is the failure of a cut-off response. -/
def CutOff (answer : Except PyExn α) : Prop :=
  ∃ rawText cause, answer = .error (.structuredOutput true rawText cause)

/-- What a structured call can do. The invocations it made are `new`. -/
inductive Called (maxCalls : Int) (j : Job) : Except PyExn α → List Invocation → Job → Prop where
  | refused : maxCalls ≤ j.state.callsUsed → Called maxCalls j (.error .llmBudgetExceeded) [] j
  | once {answer : Except PyExn α} {i : Invocation} {j' : Job} :
      j.state.callsUsed + 1 ≤ maxCalls → i.failure = failureOf answer →
      j'.invocations = j.invocations ++ [i] → j'.state.callsUsed = j.state.callsUsed + 1 →
      Called maxCalls j answer [i] j'
  /-- The first response did not fit the schema and was not cut off. -/
  | twice {answer : Except PyExn α} {i i' : Invocation} {j' : Job} :
      j.state.callsUsed + 2 ≤ maxCalls → i.truncated = false → i'.failure = failureOf answer →
      j'.invocations = j.invocations ++ [i, i'] → j'.state.callsUsed = j.state.callsUsed + 2 →
      Called maxCalls j answer [i, i'] j'

/-- What a call cost is not counted as a call. -/
theorem callsUsed_addUsage (s : AgentState) (usage : List Json) :
    (s.addUsage usage).callsUsed = s.callsUsed := by
  rw [addUsage_frame]
  rfl

/-- Every structured call is one of these. -/
theorem callStructured_called {ask : Ask α} {schema : ResponseSchema} {maxCalls : Int}
    {system prompt : String} {j j' : Job} {answer : Except PyExn α}
    (h : callStructured ask schema maxCalls system prompt j = (answer, j')) :
    ∃ new, Called maxCalls j answer new j' := by
  unfold callStructured consumeBudget at h
  by_cases hmax : maxCalls ≤ j.state.callsUsed
  · -- the budget is spent before the first call
    rw [if_pos hmax] at h
    cases h
    exact ⟨_, .refused hmax⟩
  · rw [if_neg hmax] at h
    simp only [callWithRetry] at h
    cases hfirst : generateStructured ask schema system prompt []
      { j with state := j.state.spendCall } with
    | mk r j₁ =>
      obtain ⟨first, usage⟩ := r
      have hinv : j₁.invocations = j.invocations ++ [⟨schema, prompt, failureOf first⟩] := by
        cases hfirst
        rfl
      have hused : j₁.state.callsUsed = j.state.callsUsed + 1 := by
        cases hfirst
        rfl
      simp only [hfirst] at h
      split at h
      · rename_i truncated rawText cause
        by_cases hstop : truncated = true ∨ maxCalls ≤ j₁.state.callsUsed
        · -- cut off, or nothing left for a retry
          rw [if_pos hstop] at h
          cases h
          exact ⟨_, .once (by omega) rfl hinv (by rw [callsUsed_addUsage, hused])⟩
        · -- the retry; its answer counts
          rw [if_neg hstop] at h
          -- what was cut off is not asked again
          have hwhole : truncated = false := by simpa using mt Or.inl hstop
          have hleft : j₁.state.callsUsed < maxCalls := not_le.mp (mt Or.inr hstop)
          cases hsecond : generateStructured ask schema system
            (correctivePrompt prompt cause rawText) usage
            { j₁ with state := j₁.state.spendCall } with
          | mk r₂ j₂ =>
            obtain ⟨second, usage₂⟩ := r₂
            have hinv₂ : j₂.invocations = j₁.invocations ++
                [⟨schema, correctivePrompt prompt cause rawText, failureOf second⟩] := by
              cases hsecond
              rfl
            have hused₂ : j₂.state.callsUsed = j₁.state.callsUsed + 1 := by
              cases hsecond
              rfl
            rw [hsecond] at h
            cases h
            refine ⟨_, .twice (by omega) ?_ rfl (by rw [hinv₂, hinv, List.append_assoc]; rfl)
              (by rw [callsUsed_addUsage, hused₂, hused])⟩
            simp [Invocation.truncated, failureOf, hwhole]
      · cases h
        exact ⟨_, .once (by omega) rfl hinv (by rw [callsUsed_addUsage, hused])⟩

/-- A call asks its prompt, and its retry the prompt with the error after it. -/
theorem callStructured_prompts {ask : Ask α} {schema : ResponseSchema} {maxCalls : Int}
    {system prompt : String} {j j' : Job} {answer : Except PyExn α}
    (h : callStructured ask schema maxCalls system prompt j = (answer, j')) :
    ∀ inv ∈ j'.invocations, inv ∈ j.invocations ∨ inv.prompt = prompt ∨
      ∃ cause rawText, inv.prompt = correctivePrompt prompt cause rawText := by
  -- one generation asks one prompt
  have hone : ∀ {asked usage} {j₁ : Job}, ∀ inv ∈
      (generateStructured ask schema system asked usage j₁).2.invocations,
      inv ∈ j₁.invocations ∨ inv.prompt = asked := by
    intro asked usage j₁ inv hinv
    rcases List.mem_append.mp hinv with hinv | hinv
    · exact .inl hinv
    · exact .inr (by rw [List.mem_singleton.mp hinv])
  unfold callStructured consumeBudget at h
  split at h
  · cases h
    -- the budget is spent, so nothing is asked
    exact fun _ hinv => .inl hinv
  · rename_i s hspend
    have hfirst := @hone prompt [] { j with state := s }
    dsimp only at h
    unfold callWithRetry at h
    generalize generateStructured ask schema system prompt [] { j with state := s } = r at h hfirst
    obtain ⟨⟨answer₁, usage⟩, j₁⟩ := r
    have hasked : ∀ inv ∈ j₁.invocations, inv ∈ j.invocations ∨ inv.prompt = prompt ∨
        ∃ cause rawText, inv.prompt = correctivePrompt prompt cause rawText :=
      fun inv hinv => (hfirst inv hinv).imp_right .inl
    dsimp only at h
    split at h
    · rename_i truncated rawText cause
      split at h
      · cases h
        exact hasked
      · -- the retry asks with the error after the prompt
        have hsecond := @hone (correctivePrompt prompt cause rawText) usage
          { j₁ with state := j₁.state.spendCall }
        cases h
        intro inv hinv
        rcases hsecond inv hinv with hinv | hinv
        · exact hasked inv hinv
        · exact .inr (.inr ⟨cause, rawText, hinv⟩)
    · cases h
      exact hasked

/-- At most two invocations, and none after one that was cut off. -/
theorem Called.new_le {maxCalls : Int} {j j' : Job} {answer : Except PyExn α}
    {new : List Invocation} (h : Called maxCalls j answer new j') :
    new.length ≤ 2 ∧ TruncatedLast new := by
  cases h with
  | refused _ => exact ⟨by simp, fun i hi => by simp at hi⟩
  | once _ _ _ _ => exact ⟨by simp, fun i hi => by simp at hi⟩
  | twice _ hwhole _ _ _ =>
    -- of two the first was whole
    refine ⟨by simp, fun x hx => ?_⟩
    simp only [List.dropLast_cons_cons, List.dropLast_singleton, List.mem_singleton] at hx
    exact hx ▸ hwhole

/-- The invocations of a call come after those there were. -/
theorem Called.invocations_eq {maxCalls : Int} {j j' : Job} {answer : Except PyExn α}
    {new : List Invocation} (h : Called maxCalls j answer new j') :
    j'.invocations = j.invocations ++ new := by
  cases h with
  | refused _ => simp
  | once _ _ hinv _ => exact hinv
  | twice _ _ _ hinv _ => exact hinv

/-- A call that did not fail for a cut-off response made none. -/
theorem truncated_of_failureOf {i : Invocation} {answer : Except PyExn α}
    (h : i.failure = failureOf answer) (hcut : ¬ CutOff answer) : i.truncated = false := by
  unfold Invocation.truncated
  rw [h]
  split
  · rename_i rawText cause hfail
    cases answer with
    | ok a => exact nomatch hfail
    | error e =>
      cases hfail
      exact absurd ⟨_, _, rfl⟩ hcut
  · rfl

/-- After invocations none of which was cut off, a call leaves at most its last
    one cut off, and none if it did not fail for that. -/
theorem Called.truncatedLast {maxCalls : Int} {j j' : Job} {answer : Except PyExn α}
    {new : List Invocation} (h : Called maxCalls j answer new j')
    (hj : NoneTruncated j.invocations) :
    TruncatedLast j'.invocations ∧ (¬ CutOff answer → NoneTruncated j'.invocations) := by
  have hall : ∀ i, i.failure = failureOf answer → ∀ invs, NoneTruncated invs →
      TruncatedLast (invs ++ [i]) ∧ (¬ CutOff answer → NoneTruncated (invs ++ [i])) := by
    intro i hi invs hinvs
    refine ⟨hinvs.concat i, fun hcut x hx => ?_⟩
    rcases List.mem_append.mp hx with hx | hx
    · exact hinvs x hx
    · rw [List.mem_singleton.mp hx]
      exact truncated_of_failureOf hi hcut
  -- no call, one, or two of which the first was whole
  cases h with
  | refused _ => exact ⟨hj.truncatedLast, fun _ => hj⟩
  | once _ hi hinv _ =>
    rw [hinv]
    exact hall _ hi _ hj
  | @twice _ i i' _ _ hwhole hi hinv _ =>
    rw [hinv, show j.invocations ++ [i, i'] = (j.invocations ++ [i]) ++ [i'] by simp]
    refine hall _ hi _ fun x hx => ?_
    rcases List.mem_append.mp hx with hx | hx
    · exact hj x hx
    · rw [List.mem_singleton.mp hx]
      exact hwhole

end Call

/-! ### The ledger -/

/-- The ledger counts the invocations and stays within the budget. -/
structure Ledger (maxCalls : Int) (j : Job) : Prop where
  exact : j.state.callsUsed = j.invocations.length
  within : j.invocations.length ≤ maxCalls.toNat

/-- A structured call keeps the ledger. -/
theorem Called.ledger {α : Type} {maxCalls : Int} {j j' : Job} {answer : Except PyExn α}
    {new : List Invocation} (h : Called maxCalls j answer new j') (hj : Ledger maxCalls j) :
    Ledger maxCalls j' := by
  have hlen := hj.exact
  cases h with
  | refused _ => exact hj
  | once hle _ hinv hused =>
    exact ⟨by rw [hused, hinv, hlen]; simp, by rw [hinv]; simp; omega⟩
  | twice hle _ _ hinv hused =>
    exact ⟨by rw [hused, hinv, hlen]; simp, by rw [hinv]; simp; omega⟩

/-- The ledger does not see what else a state holds. -/
theorem Ledger.of_state {maxCalls : Int} {j : Job} {s : AgentState} (hj : Ledger maxCalls j)
    (hs : s.llmCallsUsed = j.state.llmCallsUsed) : Ledger maxCalls { j with state := s } := by
  refine ⟨?_, hj.within⟩
  rw [← hj.exact]
  simp only [AgentState.callsUsed, hs]

/-! ### Nodes that call the model -/

section Nodes

variable {env : Env} {j j' : Job} {out : Except PyExn Unit}

/-- What a part of a node keeps of the ledger and of the responses cut off. -/
structure Tracked (env : Env) (j : Job) (out : Except PyExn Unit) (j' : Job) : Prop where
  ledger : Ledger env.settings.geminiMaxCallsPerRequest j →
    Ledger env.settings.geminiMaxCallsPerRequest j'
  truncatedLast : NoneTruncated j.invocations → TruncatedLast j'.invocations
  /-- A cut-off response fails the job or the node. -/
  noneTruncated : NoneTruncated j.invocations → out = .ok () → j'.state.failed = false →
    NoneTruncated j'.invocations

/-- A step that asks nothing keeps the ledger. -/
theorem Tracked.of_state {s : AgentState} (hs : s.llmCallsUsed = j.state.llmCallsUsed) :
    Tracked env j out { j with state := s } :=
  ⟨fun h => h.of_state hs, fun h => h.truncatedLast, fun h _ _ => h⟩

/-- What a step keeps it keeps from a state with the same count. -/
theorem Tracked.after_state {s : AgentState} (h : Tracked env { j with state := s } out j')
    (hs : s.llmCallsUsed = j.state.llmCallsUsed) : Tracked env j out j' :=
  ⟨fun hj => h.ledger (hj.of_state hs), h.truncatedLast, h.noneTruncated⟩

/-- The selection keeps the ledger, and a cut-off answer fails the job. -/
theorem selectPlaces_tracked {candidates : List Json}
    (h : selectPlaces env candidates j = (out, j')) : Tracked env j out j' := by
  unfold selectPlaces at h
  split at h
  · cases h
    -- the reviews have raised before anything was asked
    exact .of_state rfl
  · rename_i reviews s₁ henrich
    have hs₁ : s₁.llmCallsUsed = j.state.llmCallsUsed := by rw [enrichWithReviews_frame henrich]
    split at h
    · cases h
      -- the prompt could not be built
      exact .of_state hs₁
    · split at h
      · -- the answer failed: the state fails, or the exception goes on
        rename_i e j₁ hanswer
        obtain ⟨new, hcalled⟩ := callStructured_called hanswer
        refine Tracked.after_state ?_ hs₁
        split at h <;> cases h
        · exact ⟨fun hj => (hcalled.ledger hj).of_state rfl, fun hj => (hcalled.truncatedLast hj).1,
            fun _ _ hok => by simp at hok⟩
        · exact ⟨hcalled.ledger, fun hj => (hcalled.truncatedLast hj).1, fun _ hok => nomatch hok⟩
      · -- an answer was not cut off, and taking it asks nothing
        rename_i envelope j₁ hanswer
        obtain ⟨new, hcalled⟩ := callStructured_called hanswer
        have hwhole : ¬ CutOff (Except.ok envelope : Except PyExn PlacesSelection) :=
          fun ⟨_, _, hcut⟩ => nomatch hcut
        refine Tracked.after_state ?_ hs₁
        rcases ofState_frame h with ⟨-, s₂, htake, rfl⟩ | ⟨e, rfl, -, rfl⟩
        · have hs₂ : s₂.llmCallsUsed = j₁.state.llmCallsUsed := by rw [takeSelection_frame htake]
          exact ⟨fun hj => (hcalled.ledger hj).of_state hs₂,
            fun hj => (hcalled.truncatedLast hj).1,
            fun hj _ _ => (hcalled.truncatedLast hj).2 hwhole⟩
        · exact ⟨hcalled.ledger, fun hj => (hcalled.truncatedLast hj).1, fun _ hok => nomatch hok⟩

/-- So does what selects beside the pinned places. -/
theorem selectFresh_tracked (h : selectFresh env j = (out, j')) : Tracked env j out j' := by
  unfold selectFresh at h
  dsimp only at h
  split at h
  · cases h
    -- no candidates: nothing is asked
    exact .of_state rfl
  · split at h
    · cases h
      exact .of_state rfl
    · exact (selectPlaces_tracked h).after_state rfl

/-- Checking coverage never clears an error. -/
theorem failed_finishPlaces {pinned : List Place} {s : AgentState} (h : s.failed = true) :
    finishPlaces pinned s = s := by
  simp [finishPlaces, h]

/-- So does `recommend_places`, whichever way it goes. -/
theorem recommendPlaces_tracked (h : recommendPlaces env j = (out, j')) : Tracked env j out j' := by
  cases recommendPlaces_run h with
  | failed _ => exact .of_state rfl
  | raisedPins _ => exact .of_state rfl
  | unverified hpins _ => exact .of_state (by rw [verifiedPins_frame hpins])
  | filled hpins _ hpin => exact .of_state (by rw [pinned_frame hpins hpin])
  | raised hpins _ hpin hfresh =>
    exact (selectFresh_tracked hfresh).after_state (by rw [pinned_frame hpins hpin])
  | @selected _ _ _ j₁ hpins _ hpin hfresh =>
    have htracked := (selectFresh_tracked hfresh).after_state (by rw [pinned_frame hpins hpin])
    refine ⟨fun hj => (htracked.ledger hj).of_state ?_, htracked.truncatedLast,
      fun hj _ hok => htracked.noneTruncated hj rfl ?_⟩
    · rw [finishPlaces_frame]
    · cases hfailed : j₁.state.failed with
      | false => rfl
      | true =>
        -- a job that failed already stays failed
        rw [failed_finishPlaces hfailed] at hok
        exact absurd hok (by simp [hfailed])

/-- A question for reasons is a structured call, or fails before it is asked. -/
theorem askReasons_called {targets : List Place} {suffix : String}
    {answer : Except PyExn ReasonEnvelope} (h : askReasons env targets suffix j = (answer, j')) :
    (∃ e, answer = .error e ∧ j' = j) ∨
      ∃ new, Called env.settings.geminiMaxCallsPerRequest j answer new j' := by
  unfold askReasons at h
  dsimp only at h
  split at h
  · rename_i e _
    cases h
    exact .inl ⟨e, rfl, rfl⟩
  · exact .inr (callStructured_called h)

/-- What a question for reasons keeps; only a failed one may have been cut off. -/
theorem askReasons_tracked {targets : List Place} {suffix : String}
    {answer : Except PyExn ReasonEnvelope} (h : askReasons env targets suffix j = (answer, j')) :
    (Ledger env.settings.geminiMaxCallsPerRequest j →
      Ledger env.settings.geminiMaxCallsPerRequest j') ∧
    (NoneTruncated j.invocations → TruncatedLast j'.invocations) ∧
    (NoneTruncated j.invocations → ∀ envelope, answer = .ok envelope →
      NoneTruncated j'.invocations) := by
  rcases askReasons_called h with ⟨e, rfl, rfl⟩ | ⟨new, hcalled⟩
  · exact ⟨id, fun hj => hj.truncatedLast, fun hj _ _ => hj⟩
  · refine ⟨hcalled.ledger, fun hj => (hcalled.truncatedLast hj).1, ?_⟩
    rintro hj envelope rfl
    exact (hcalled.truncatedLast hj).2 fun ⟨_, _, hcut⟩ => nomatch hcut

/-- Writing the reasons down counts no call. -/
theorem finishReasons_llmCallsUsed (reasons : List (Int × String)) (clothing : String)
    (s : AgentState) : (finishReasons reasons clothing s).llmCallsUsed = s.llmCallsUsed := by
  rw [finishReasons_frame]

/-- The second question for reasons keeps the ledger. -/
theorem completeReasons_tracked {reasons : List (Int × String)} {clothing : String}
    (h : completeReasons env reasons clothing j = (out, j')) :
    (Ledger env.settings.geminiMaxCallsPerRequest j →
      Ledger env.settings.geminiMaxCallsPerRequest j') ∧
    (NoneTruncated j.invocations → TruncatedLast j'.invocations) := by
  unfold completeReasons at h
  dsimp only at h
  split at h
  · cases h
    -- every place has its reason, or no call is left
    exact ⟨fun hj => hj.of_state (finishReasons_llmCallsUsed _ _ _), fun hj => hj.truncatedLast⟩
  · split at h
    · rename_i envelope j₁ hanswer
      obtain ⟨hledger, hlast, -⟩ := askReasons_tracked hanswer
      cases h
      -- the second answer is the last call of the run, cut off or not
      exact ⟨fun hj => (hledger hj).of_state (finishReasons_llmCallsUsed _ _ _), hlast⟩
    · rename_i e j₁ hanswer
      obtain ⟨hledger, hlast, -⟩ := askReasons_tracked hanswer
      split at h <;> cases h
      · exact ⟨fun hj => (hledger hj).of_state (finishReasons_llmCallsUsed _ _ _), hlast⟩
      · -- what is no `Exception` is passed on
        exact ⟨hledger, hlast⟩

/-- The reasons of a trip keep the ledger. -/
theorem llmReason_tracked (h : llmReason env j = (out, j')) :
    (Ledger env.settings.geminiMaxCallsPerRequest j →
      Ledger env.settings.geminiMaxCallsPerRequest j') ∧
    (NoneTruncated j.invocations → TruncatedLast j'.invocations) := by
  unfold llmReason at h
  dsimp only at h
  split at h
  · cases h
    -- failed, or no places: nothing is asked
    exact ⟨id, fun hj => hj.truncatedLast⟩
  · split at h
    · rename_i e j₁ hanswer
      obtain ⟨hledger, hlast, -⟩ := askReasons_tracked hanswer
      split at h <;> cases h
      · exact ⟨fun hj => (hledger hj).of_state rfl, hlast⟩
      · exact ⟨hledger, hlast⟩
    · rename_i envelope j₁ hanswer
      -- what was answered was whole, so only the next answer may be cut off
      obtain ⟨hledger, -, hnone⟩ := askReasons_tracked hanswer
      obtain ⟨hledger₂, hlast₂⟩ := completeReasons_tracked h
      exact ⟨fun hj => hledger₂ (hledger hj), fun hj => hlast₂ (hnone hj _ rfl)⟩

end Nodes

/-! ### A whole job -/

/-- The nodes a job with given places never comes to. -/
def AgentNode.drafts : AgentNode → Bool
  | .planStrategy | .searchPlaces | .rulesFilter | .scoreAndRank | .recommendPlaces
  | .llmReason => true
  | _ => false

/-- What holds of the budget when a job comes to run node `n`. -/
structure BudgetAt (env : Env) (req : AgentRequest) (n : AgentNode) (j : Job) : Prop where
  request : j.state.request = req
  ledger : Ledger env.settings.geminiMaxCallsPerRequest j
  /-- Nothing is asked before the selection. -/
  unasked : 6 ≤ n.rank → j.invocations = []
  /-- A cut-off selection fails the job, so the reasons are asked after none. -/
  noneTruncated : 2 ≤ n.rank → NoneTruncated j.invocations
  truncatedLast : TruncatedLast j.invocations
  route : req.stage = .route → n.drafts = false ∧ j.invocations = []

/-- What holds of the budget after a node. -/
structure Budgeted (env : Env) (req : AgentRequest) (j : Job) : Prop where
  within : (j.invocations.length : Int) ≤ max 0 env.settings.geminiMaxCallsPerRequest
  exact : j.state.callsUsed = j.invocations.length
  /-- An invocation whose output was cut off is the job's last. -/
  truncatedLast : TruncatedLast j.invocations
  route : req.stage = .route → j.invocations = []

section Run

variable {env : Env} {req : AgentRequest} {j j' : Job}

/-- A route job turns off to its given places. -/
theorem drafts_edge {s : AgentState} {n m : AgentNode} (hs : s.request.stage = .route)
    (hn : n.drafts = false) (h : edge s n = some m) : m.drafts = false := by
  cases n <;>
    simp only [edge, routeAfter, routeAfterWeather, routeAfterTimeBudget, hs, or_true, if_true,
      Option.some.injEq, reduceCtorEq] at h <;>
    first
      | (subst h; (repeat' split) <;> rfl)
      | cases hn

/-- On the route path no node asks. -/
theorem asksModel_of_drafts {n : AgentNode} (h : n.drafts = false) : n.asksModel = false := by
  cases n <;> first | rfl | cases h

/-- One node keeps the budget. -/
theorem BudgetAt.after {n : AgentNode} {out : Except PyExn Unit} (hj : BudgetAt env req n j)
    (h : runNode env n j = (out, j')) :
    Budgeted env req j' ∧
      ∀ m, out = .ok () → edge j'.state n = some m → BudgetAt env req m j' := by
  have hreq := (runNode_request h).trans hj.request
  -- on the route path no node asks
  have hroute : req.stage = .route → j'.invocations = [] := fun hstage =>
    (runNode_quiet (asksModel_of_drafts (hj.route hstage).1) h).1.trans (hj.route hstage).2
  have hdrafts : ∀ m, edge j'.state n = some m → req.stage = .route →
      m.drafts = false ∧ j'.invocations = [] := fun m hm hstage =>
    ⟨drafts_edge (by rw [hreq, hstage]) (hj.route hstage).1 hm, hroute hstage⟩
  have hwithin : Ledger env.settings.geminiMaxCallsPerRequest j' → TruncatedLast j'.invocations →
      Budgeted env req j' := by
    intro hledger hlast
    have := hledger.within
    exact ⟨by omega, hledger.exact, hlast, hroute⟩
  cases hask : n.asksModel with
  | false =>
    -- a node that does not ask leaves the ledger
    obtain ⟨hinv, hused, -⟩ := runNode_quiet hask h
    have hledger : Ledger env.settings.geminiMaxCallsPerRequest j' :=
      ⟨by rw [AgentState.callsUsed, hused, hinv]; exact hj.ledger.exact,
        by rw [hinv]; exact hj.ledger.within⟩
    have hlast : TruncatedLast j'.invocations := hinv ▸ hj.truncatedLast
    refine ⟨hwithin hledger hlast, fun m _ hm => ?_⟩
    have hrank := rank_edge_lt hm
    exact ⟨hreq, hledger, fun h6 => hinv ▸ hj.unasked (by omega),
      fun h2 => hinv ▸ hj.noneTruncated (by omega), hlast, hdrafts m hm⟩
  | true =>
    cases n with
    | recommendPlaces =>
      -- the one node that asks before `llm_reason`
      have htracked := recommendPlaces_tracked h
      have hnone := hj.noneTruncated (by decide)
      have hledger := htracked.ledger hj.ledger
      have hlast := htracked.truncatedLast hnone
      refine ⟨hwithin hledger hlast, fun m hout hm => ⟨hreq, hledger, fun h6 => ?_, fun h2 => ?_,
        hlast, hdrafts m hm⟩⟩
      · have : m.rank < 6 := rank_edge_lt hm
        omega
      · -- the route after a failure skips all nodes that ask
        refine htracked.noneTruncated hnone hout ?_
        cases hfailed : j'.state.failed with
        | false => rfl
        | true =>
          simp only [edge, routeAfter, hfailed, if_true, Option.some.injEq] at hm
          subst hm
          exact absurd h2 (by decide)
    | llmReason =>
      -- the last node that asks
      obtain ⟨hkeep, hcut⟩ := llmReason_tracked h
      have hlast := hcut (hj.noneTruncated (by decide))
      refine ⟨hwithin (hkeep hj.ledger) hlast, fun m hout hm => ?_⟩
      cases hm
      exact ⟨hreq, hkeep hj.ledger, fun h6 => absurd h6 (by decide),
        fun h2 => absurd h2 (by decide), hlast, hdrafts _ rfl⟩
    | _ => cases hask

/-- The budget holds wherever a job comes to. -/
theorem budgetAt_of_reaches {jobId : String} {n : AgentNode}
    (h : (agentGraph env).Reaches (Job.start jobId req) n j) : BudgetAt env req n j := by
  refine h.assert (BudgetAt env req) ?_ fun n m s s' hs hn hm => (hs.after hn).2 m rfl hm
  -- a job starts with nothing asked and nothing counted
  exact ⟨rfl, ⟨rfl, Nat.zero_le _⟩, fun _ => rfl, fun _ i hi => (nomatch hi),
    fun i hi => (nomatch hi), fun _ => ⟨rfl, rfl⟩⟩

/-- The whole job keeps to its budget. The ledger is exact after every node; a
    job that failed asks nothing more; and no structured call invokes the model
    more than twice, or again after a response that was cut off. -/
theorem budget_holds (env : Env) (jobId : String) (req : AgentRequest) :
    Budgeted env req (ainvoke env jobId req).2 ∧
    (∀ n j, (agentGraph env).Reaches (Job.start jobId req) n j →
      Budgeted env req (runNode env n j).2 ∧
      (j.state.failed = true → ∀ fuel out j', (agentGraph env).run fuel n j = some (out, j') →
        j'.invocations = j.invocations)) ∧
    ∀ (α : Type) (ask : Ask α) schema system prompt j answer j',
      callStructured ask schema env.settings.geminiMaxCallsPerRequest system prompt j =
        (answer, j') →
      ∃ new, j'.invocations = j.invocations ++ new ∧ new.length ≤ 2 ∧ TruncatedLast new := by
  refine ⟨?_, fun n j hj => ⟨((budgetAt_of_reaches hj).after rfl).1, fun hfailed fuel out j' hrun => ?_⟩,
    fun α ask schema system prompt j answer j' h => ?_⟩
  · obtain ⟨m, j, hj, hnode, -⟩ := StateGraph.run_sound .entry (ainvoke_run env jobId req)
    exact ((budgetAt_of_reaches hj).after hnode).1
  · -- a failed run asks no more, step by step
    have hkept : j'.invocations = j.invocations ∧ j'.state.failed = true := by
      refine StateGraph.run_preserves (g := agentGraph env)
        (fun t => t.invocations = j.invocations ∧ t.state.failed = true)
        (fun n t ht => ?_) ⟨rfl, hfailed⟩ hrun
      obtain ⟨hinv, hstays⟩ := runNode_failed (show runNode env n t = _ from rfl) ht.2
      exact ⟨hinv.trans ht.1, hstays⟩
    exact hkept.1
  · obtain ⟨new, hcalled⟩ := callStructured_called h
    exact ⟨new, hcalled.invocations_eq, hcalled.new_le⟩

end Run

end MapServiceAgent.Native

import MapServiceAgent.Spec.AlikeRuns

/-!
# What a failed job tells

A failed message carries one of a fixed list of codes. The node that fails first
decides which: a failed state goes through every later node as it is. Nothing of
an exception's text gets into it.

## Key results

- `runNode_coded`: a node that fails sets a code of the list
- `first_failure`: a failed job carries what its first failing node set
- `failure_contract`: the codes, the first failure, and two runs that differ in
  texts only
-/

namespace MapServiceAgent.Native

variable {env : Env} {jobId : String} {req : AgentRequest} {s s' : AgentState} {j j' : Job}

/-- The codes of a failed message. -/
def failureCodes : List String :=
  ["invalid_request", "no_matching_places", "selection_invalid", "upstream_unavailable",
    "quota_exceeded", "generation_failed", "generation_timeout"]

/-! ### Codes -/

/-- A failure names its code as its error, and the code is one of the list. -/
structure Failure.Listed (f : Failure) : Prop where
  error_eq : f.error = f.code
  code_mem : f.code ∈ failureCodes

/-- A failure under a listed code is listed. -/
theorem listed_failure {code : String} {retryable : Bool} (h : code ∈ failureCodes) :
    (failure code retryable).Listed :=
  ⟨rfl, h⟩

/-- Whatever exception was caught, its failure is listed. -/
theorem listed_exceptionFailure (e : PyExn) : (exceptionFailure e).Listed := by
  unfold exceptionFailure
  repeat' split
  all_goals exact listed_failure (by decide)

/-- So is the failure of a job, whatever ended it. -/
theorem listed_jobFailure (e : PyExn) : (jobFailure e).Listed := by
  unfold jobFailure
  split
  · exact listed_failure (by decide)
  · exact listed_failure (by decide)
  · exact listed_failure (by decide)
  · -- neither struck nor timed out: the failure of the exception
    exact listed_exceptionFailure e

/-- A failed state says why, in a code of the list. -/
def Coded (s : AgentState) : Prop :=
  s.failed = true → ∃ code ∈ failureCodes, ∃ retryable, s.code = some code ∧ s.retryable = some retryable

/-- A failure written under a listed code leaves the state coded. -/
theorem coded_fail {code : String} (s : AgentState) (error : String) (retryable : Bool)
    (h : code ∈ failureCodes) : Coded (s.fail error code retryable) :=
  fun _ => ⟨code, h, retryable, rfl, rfl⟩

/-- What keeps the failure of a state keeps it coded. -/
theorem Coded.of_keys (h : Coded s) (herror : s'.error = s.error) (hcode : s'.code = s.code)
    (hretryable : s'.retryable = s.retryable) : Coded s' := by
  intro hfailed
  rw [AgentState.failed, herror] at hfailed
  rw [hcode, hretryable]
  exact h hfailed

/-! ### Nodes that fail -/

/-- A request that is refused is refused under a listed code. -/
theorem parseInput_coded (hs : Coded s) (h : parseInput s = .ok s') : Coded s' := by
  unfold parseInput at h
  dsimp only at h
  repeat' split at h
  all_goals cases h
  all_goals first
    | exact hs
    | exact coded_fail s _ _ (by decide)

/-- So is a place that cannot be verified. -/
theorem verifySelectedPlaces_coded {selected : List SelectedPlace} {places : List Place}
    (hs : Coded s) (h : verifySelectedPlaces env s selected = .ok (places, s')) : Coded s' := by
  unfold verifySelectedPlaces at h
  split at h
  · -- all were verified
    cases h
    exact hs
  · -- one was not found
    cases h
    exact coded_fail s _ _ (by decide)
  · split at h
    · -- the hub could not be asked
      cases h
      exact coded_fail s _ _ (listed_exceptionFailure _).code_mem
    · cases h

/-- Loading the places of a route leaves the state coded. -/
theorem loadGivenPlaces_coded (hs : Coded s) (h : loadGivenPlaces env s = .ok s') : Coded s' := by
  unfold loadGivenPlaces at h
  split at h
  · cases h
    exact hs
  · split at h
    · -- no places were given
      cases h
      exact coded_fail s _ _ (by decide)
    · -- those given are verified
      obtain ⟨⟨places, verified⟩, hverify, h⟩ := bind_eq_ok.mp h
      cases h
      have hroute : Coded { s with selectionPath := some "route" } := hs.of_keys rfl rfl rfl
      exact (verifySelectedPlaces_coded hroute hverify).of_keys rfl rfl rfl

/-- A search that fails writes a listed code. -/
theorem searchPlaces_coded (hs : Coded s) (h : searchPlaces env s = .ok s') : Coded s' := by
  unfold searchPlaces at h
  split at h
  · cases h
    exact hs
  · split at h
    · rename_i e _
      dsimp only at h
      split at h
      · cases h
        -- the code is the one of the search, or of the exception
        refine (coded_fail s _ _ ?_).of_keys rfl rfl rfl
        split
        · decide
        · exact (listed_exceptionFailure e).code_mem
      · cases h
    · split at h
      · -- with or without candidates, the search itself has not failed
        obtain ⟨candidates, -, h⟩ := bind_eq_ok.mp h
        -- an answer is not a list of places
        split at h <;> cases h <;> exact hs.of_keys rfl rfl rfl
      · cases h
        exact (coded_fail s _ _ (by decide)).of_keys rfl rfl rfl

/-- Taking a selection leaves the state coded. -/
theorem takeSelection_coded {candidates : List Json} {selections : List PlaceSelection}
    (hs : Coded s) (h : takeSelection env candidates selections s = .ok s') : Coded s' := by
  unfold takeSelection at h
  obtain ⟨places, -, h⟩ := bind_eq_ok.mp h
  split at h <;> cases h
  · -- nothing of it could be used
    exact coded_fail s _ _ (by decide)
  · exact hs.of_keys rfl rfl rfl

/-- Drawing a route leaves the state coded. -/
theorem recommendRoute_coded (hs : Coded s) (h : recommendRoute env s = .ok s') : Coded s' := by
  unfold recommendRoute at h
  split at h
  · cases h
    exact hs
  · split at h
    · cases h
    · -- there are no places to go to
      cases h
      exact coded_fail s _ _ (by decide)
    · -- the route was drawn
      obtain ⟨legs, -, h⟩ := bind_eq_ok.mp h
      cases h
      exact hs.of_keys rfl rfl rfl

/-- Fitting a trip to its days leaves the state coded. -/
theorem fitTimeBudget_coded (hs : Coded s) (h : fitTimeBudget env s = .ok s') : Coded s' := by
  unfold fitTimeBudget at h
  dsimp only at h
  split at h
  · cases h
    exact hs
  · split at h
    · -- every day fits, or there are no times
      cases h
      exact hs
    · split at h
      · -- the places were given, so none may go
        cases h
        exact coded_fail _ _ _ (by decide)
      · unfold trimTimeline at h
        obtain ⟨⟨stay, dropped⟩, -, h⟩ := bind_eq_ok.mp h
        obtain ⟨left, hleft, h⟩ := bind_eq_ok.mp h
        obtain ⟨layout, -, h⟩ := bind_eq_ok.mp h
        -- dropping places writes no code
        have hcoded : Coded left := by
          rw [dropPlaces_frame hleft]
          exact hs.of_keys rfl rfl rfl
        split at h <;> cases h
        · exact coded_fail _ _ _ (by decide)
        · exact hcoded.of_keys rfl rfl rfl

/-! ### The selection -/

/-- Asking for a selection leaves the state coded. -/
theorem selectPlaces_coded {candidates : List Json} {out : Except PyExn Unit}
    (hs : Coded j.state) (h : selectPlaces env candidates j = (out, j')) : Coded j'.state := by
  unfold selectPlaces at h
  split at h
  · cases h
    exact hs
  · rename_i reviews s hreviews
    have hs₁ : Coded s := by
      rw [enrichWithReviews_frame hreviews]
      exact hs.of_keys rfl rfl rfl
    split at h
    · -- the prompt could not be written
      cases h
      exact hs₁
    · split at h
      · -- a failure that is caught is written with a listed code
        rename_i e j₁ hcall
        split at h
        · cases h
          exact coded_fail _ _ _ (listed_exceptionFailure e).code_mem
        · cases h
          rw [callStructured_frame hcall]
          exact hs₁.of_keys rfl rfl rfl
      · -- the answer is taken
        rename_i envelope j₁ hcall
        have hj₁ : Coded j₁.state := by
          rw [callStructured_frame hcall]
          exact hs₁.of_keys rfl rfl rfl
        rcases ofState_frame h with ⟨-, t, ht, rfl⟩ | ⟨e, -, -, rfl⟩
        · exact takeSelection_coded hj₁ ht
        · exact hj₁

/-- Selecting fresh places leaves the state coded. -/
theorem selectFresh_coded {out : Except PyExn Unit} (hs : Coded j.state)
    (h : selectFresh env j = (out, j')) : Coded j'.state := by
  unfold selectFresh at h
  dsimp only at h
  split at h
  · -- there are no candidates to select from
    cases h
    exact coded_fail _ _ _ (by decide)
  · split at h
    · -- capping them raised
      cases h
      exact hs
    · refine selectPlaces_coded ?_ h
      exact hs.of_keys rfl rfl rfl

/-- So does putting them together with the pins. -/
theorem finishPlaces_coded (pinned : List Place) (hs : Coded s) : Coded (finishPlaces pinned s) := by
  unfold finishPlaces
  dsimp only
  split
  · exact hs
  · repeat' split
    all_goals first
      | exact coded_fail _ _ _ (by decide)
      | exact hs.of_keys rfl rfl rfl

/-- Recommending places leaves the state coded, whichever way it goes. -/
theorem recommendPlaces_coded {out : Except PyExn Unit} (hs : Coded j.state)
    (h : recommendPlaces env j = (out, j')) : Coded j'.state := by
  -- checking the places asked for may fail, under a code of its own
  have hpins : ∀ {pinned s}, verifiedPins env j.state = .ok (pinned, s) → Coded s := by
    intro pinned s hpins
    obtain ⟨placed, -, hpins⟩ := bind_eq_ok.mp hpins
    split at hpins
    · cases hpins
      exact hs
    · exact verifySelectedPlaces_coded hs hpins
  have hpinned : ∀ {pinned s b s₁}, verifiedPins env j.state = .ok (pinned, s) →
      pinPlaces s pinned = (b, s₁) → Coded s₁ := by
    intro pinned s b s₁ hverify hpin
    have hframe := pinPlaces_frame s pinned
    rw [hpin] at hframe
    rw [show s₁ = _ from hframe]
    exact (hpins hverify).of_keys rfl rfl rfl
  cases recommendPlaces_run h with
  | failed _ => exact hs
  | raisedPins _ => exact hs
  | unverified hverify _ => exact hpins hverify
  | filled hverify _ hpin => exact (hpinned hverify hpin).of_keys rfl rfl rfl
  | raised hverify _ hpin hfresh => exact selectFresh_coded (hpinned hverify hpin) hfresh
  | selected hverify _ hpin hfresh =>
    exact finishPlaces_coded _ (selectFresh_coded (hpinned hverify hpin) hfresh)

/-! ### The first failure -/

/-- A node that fails sets a code of the list. -/
theorem runNode_coded {n : AgentNode} {out : Except PyExn Unit} (hs : Coded j.state)
    (h : runNode env n j = (out, j')) : Coded j'.state := by
  -- a node on the state either returns a coded one or raises
  have hstate : ∀ f, JobM.ofState f j = (out, j') → (∀ t, f j.state = .ok t → Coded t) →
      Coded j'.state := by
    intro f hjob hf
    rcases ofState_frame hjob with ⟨-, t, ht, rfl⟩ | ⟨e, -, -, rfl⟩
    · exact hf t ht
    · exact hs
  cases n with
  | parseInput => exact hstate _ h fun t ht => parseInput_coded hs ht
  | fetchWeather =>
    exact hstate _ h fun t ht => by rw [fetchWeather_frame ht]; exact hs.of_keys rfl rfl rfl
  | planStrategy =>
    exact hstate _ h fun t ht => by rw [planStrategy_frame ht]; exact hs.of_keys rfl rfl rfl
  | loadGivenPlaces => exact hstate _ h fun t ht => loadGivenPlaces_coded hs ht
  | searchPlaces => exact hstate _ h fun t ht => searchPlaces_coded hs ht
  | rulesFilter =>
    exact hstate _ h fun t ht => by rw [rulesFilter_frame ht]; exact hs.of_keys rfl rfl rfl
  | scoreAndRank =>
    exact hstate _ h fun t ht => by rw [scoreAndRank_frame ht]; exact hs.of_keys rfl rfl rfl
  | recommendPlaces => exact recommendPlaces_coded hs h
  | recommendRoute => exact hstate _ h fun t ht => recommendRoute_coded hs ht
  | buildTimeline =>
    exact hstate _ h fun t ht => by rw [buildTimeline_frame ht]; exact hs.of_keys rfl rfl rfl
  | fitTimeBudget => exact hstate _ h fun t ht => fitTimeBudget_coded hs ht
  | llmReason =>
    -- no reason for a place makes a job fail
    rw [llmReason_frame h]
    exact hs.of_keys rfl rfl rfl
  | buildPayload =>
    exact hstate _ h fun t ht => by rw [buildPayload_frame ht]; exact hs.of_keys rfl rfl rfl
  | publishDone =>
    rw [publishDone_frame h]
    exact hs

/-- Every state a run comes to is coded. -/
theorem coded_of_reaches {n : AgentNode}
    (h : (agentGraph env).Reaches (Job.start jobId req) n j) : Coded j.state :=
  h.invariant (fun j => Coded j.state) (fun hfailed => by cases hfailed)
    fun n j hj => runNode_coded hj (show runNode env n j = _ from rfl)

/-- A node that a job came to unfailed and left failed, in the state given. -/
structure FailsAt (env : Env) (jobId : String) (req : AgentRequest) (n : AgentNode) (before after : Job) :
    Prop where
  comes : (agentGraph env).Reaches (Job.start jobId req) n before
  unfailed : before.state.failed = false
  runs : runNode env n before = (.ok (), after)
  fails : after.state.failed = true

/-- A failed job is in the state its first failing node left. -/
theorem failsAt_of_reaches {n : AgentNode}
    (h : (agentGraph env).Reaches (Job.start jobId req) n j) (hfailed : j.state.failed = true) :
    ∃ m before after, FailsAt env jobId req m before after ∧ j.state = after.state := by
  induction h with
  | entry => cases hfailed
  | @step n m i j hi hrun hroute ih =>
    cases hbefore : i.state.failed with
    | false => exact ⟨n, i, j, ⟨hi, hbefore, hrun, hfailed⟩, rfl⟩
    | true =>
      obtain ⟨m, before, after, hat, hstate⟩ := ih hbefore
      -- the first node starts unfailed
      have hn : n ≠ .parseInput := by
        rintro rfl
        rw [reaches_parseInput hi] at hbefore
        cases hbefore
      exact ⟨m, before, after, hat, (runNode_kept hn hrun hbefore).2.1.trans hstate⟩

/-- A failed job carries what its first failing node set. -/
theorem first_failure (h : (agentGraph env).Reaches (Job.start jobId req) .publishDone j)
    (hfailed : j.state.failed = true) :
    ∃ n before after, FailsAt env jobId req n before after ∧
      ∃ code ∈ failureCodes, ∃ retryable, after.state.code = some code ∧
        after.state.retryable = some retryable ∧
        donePayload j.state = .ok (failedPayload j.state.jobId (failure code retryable)) := by
  obtain ⟨n, before, after, hat, hstate⟩ := failsAt_of_reaches h hfailed
  obtain ⟨code, hcode, retryable, hc, hr⟩ := coded_of_reaches h hfailed
  rw [hstate] at hc hr
  refine ⟨n, before, after, hat, code, hcode, retryable, hc, hr, ?_⟩
  rw [donePayload, if_pos hfailed, hstate, hc, hr]
  rfl

/-! ### Messages -/

/-- The nodes of a job, which anything may strike at some of their awaits. -/
def struckNodes (env : Env) (jobId : String) (req : AgentRequest) (awaits : Nat) :
    Co PyExn Empty JobDonePayload :=
  (Co.awaits awaits).bind fun _ => comeTo env jobId req

/-- The messages of a job under a schedule. -/
def messages (env : Env) (jobId : String) (req : AgentRequest) (awaits writes : Nat)
    (schedule : List (Decision PyExn)) : List JobDonePayload :=
  ((runJobCo jobId (struckNodes env jobId req awaits) writes).exec schedule).sent

/-- A message that reports a failure says why, in a code of the list. -/
def SaysWhy (p : JobDonePayload) : Prop :=
  p.status = .failed → ∃ code ∈ failureCodes, p.error = some code ∧ p.code = some code

/-- The payload of a listed failure says why. -/
theorem saysWhy_failedPayload {f : Failure} (hf : f.Listed) : SaysWhy (failedPayload jobId f) :=
  fun _ => ⟨f.code, hf.code_mem, congrArg some hf.error_eq, rfl⟩

/-- What the nodes come to is what `publish_done` makes of their last state. -/
theorem reaches_of_comeTo {p : JobDonePayload} (h : comeTo env jobId req = .ret p) :
    ∃ j, (agentGraph env).Reaches (Job.start jobId req) .publishDone j ∧
      donePayload j.state = .ok p := by
  rcases runJob_eq env jobId req with ⟨j, p', hj, hp', hok, hstate, -⟩ | ⟨e, herror, -⟩
  · rw [comeTo_eq_ret hok (hstate ▸ hp')] at h
    cases h
    exact ⟨j, hj, hp'⟩
  · -- a graph that raises comes to no payload
    rw [comeTo_eq_raise herror] at h
    cases h

/-- So does every payload the graph comes to. -/
theorem saysWhy_of_comeTo {p : JobDonePayload} (h : comeTo env jobId req = .ret p) : SaysWhy p := by
  obtain ⟨j, hj, hp⟩ := reaches_of_comeTo h
  cases hfailed : j.state.failed with
  | true =>
    -- a failed state is published as its first failure
    obtain ⟨-, -, -, -, code, hcode, retryable, -, -, hpayload⟩ := first_failure hj hfailed
    rw [hp] at hpayload
    cases hpayload
    exact saysWhy_failedPayload (listed_failure hcode)
  | false =>
    -- an unfailed state is published as done, or not at all
    intro hstatus
    rw [donePayload, hfailed] at hp
    obtain ⟨places, -, hp⟩ := bind_eq_ok.mp hp
    obtain ⟨order, -, hp⟩ := bind_eq_ok.mp hp
    obtain ⟨legs, -, hp⟩ := bind_eq_ok.mp hp
    cases hp
    cases hstatus

/-- The graph comes to a payload or raises. -/
theorem comeTo_cases (env : Env) (jobId : String) (req : AgentRequest) :
    (∃ p, comeTo env jobId req = .ret p) ∨ ∃ e, comeTo env jobId req = .raise e := by
  unfold comeTo
  split
  · split
    · exact .inl ⟨_, rfl⟩
    · exact .inr ⟨_, rfl⟩
  · exact .inr ⟨_, rfl⟩

/-- A payload that comes out of nodes that may be struck is that of the graph. -/
theorem outcome_struckNodes {awaits : Nat} {schedule : List (Decision PyExn)} {p : JobDonePayload}
    (h : ((struckNodes env jobId req awaits).exec schedule).outcome = .ok p) :
    comeTo env jobId req = .ret p := by
  rw [struckNodes, Co.exec_bind, Co.exec_awaits] at h
  -- struck, there is no payload; unstruck, the one of the graph
  cases hstrike : Co.strikeWithin awaits schedule with
  | some struck =>
    rw [hstrike] at h
    cases h
  | none =>
    rw [hstrike] at h
    rcases comeTo_cases env jobId req with ⟨q, hq⟩ | ⟨e, he⟩
    · simp only [Co.Ran.andThen, Co.Ran.after, hq, Co.exec] at h
      cases h
      exact hq
    · simp only [Co.Ran.andThen, Co.Ran.after, he, Co.exec] at h
      cases h

/-- Every message that reports a failure says why. -/
theorem messages_say_why {awaits writes : Nat} {schedule : List (Decision PyExn)}
    {p : JobDonePayload} (hp : p ∈ messages env jobId req awaits writes schedule) : SaysWhy p := by
  obtain ⟨f, hsent⟩ := sent_runJobCo jobId (struckNodes env jobId req awaits) writes schedule
  have hgraph := exec_ainvokeCo (struckNodes env jobId req awaits) writes schedule
  rw [messages, hsent, List.mem_append] at hp
  -- the message of the graph, or the one about its failure
  rcases hp with hp | hp
  · cases hout : ((struckNodes env jobId req awaits).exec schedule).outcome with
    | error e =>
      simp only [hout] at hgraph
      -- the graph raised, so it sent nothing
      rw [hgraph.1] at hp
      cases hp
    | ok payload =>
      -- what the graph sent is its payload
      have hsays := saysWhy_of_comeTo (outcome_struckNodes hout)
      simp only [hout] at hgraph
      split at hgraph
      · rw [hgraph.1, List.mem_singleton] at hp
        rw [hp]
        exact hsays
      · rw [hgraph.1] at hp
        cases hp
  · split at hp
    · cases hp
    · split at hp
      · rw [List.mem_singleton] at hp
        rw [hp]
        exact saysWhy_failedPayload (listed_jobFailure _)
      · cases hp

/-- Two runs that differ in the texts of exceptions leave the same messages. -/
theorem messages_alike {hub : Hub} {gemini : Gemini} (hhub : env.hub.Alike hub)
    (hgemini : env.gemini.Alike gemini) (jobId jobId' : String) (req : AgentRequest)
    (awaits writes : Nat) {schedule schedule' : List (Decision PyExn)}
    (hschedule : List.Forall₂ (Decision.Rel PyExn.Alike) schedule schedule') :
    List.Forall₂ (SamePayload jobId') (messages env jobId req awaits writes schedule)
      (messages { env with hub := hub, gemini := gemini } jobId' req awaits writes schedule') := by
  have hnodes : Co.Rel PyExn.Alike Eq (SamePayload jobId') (struckNodes env jobId req awaits)
      (struckNodes { env with hub := hub, gemini := gemini } jobId' req awaits) :=
    (Co.Rel.awaits awaits).bind fun _ _ _ => comeTo_alike hhub hgemini jobId jobId' req
  exact ((runJobCo_alike jobId jobId' hnodes writes).exec hschedule).sent

/-- A failed message says why in a code of the list, its error the code; where
    `publish_done` sends it, both keys are those of the first node that failed,
    and no node after it touches the state; and of two runs that differ in the
    texts of exceptions only, the messages are the same but for the job's name. -/
theorem failure_contract (env : Env) (req : AgentRequest) :
    (∀ jobId awaits writes schedule, ∀ p ∈ messages env jobId req awaits writes schedule,
      SaysWhy p) ∧
    (∀ jobId j, (agentGraph env).Reaches (Job.start jobId req) .publishDone j →
      j.state.failed = true →
      ∃ n before after, FailsAt env jobId req n before after ∧
        (∃ code ∈ failureCodes, ∃ retryable, after.state.code = some code ∧
          after.state.retryable = some retryable ∧
          donePayload j.state = .ok (failedPayload j.state.jobId (failure code retryable)))) ∧
    (∀ jobId n j, (agentGraph env).Reaches (Job.start jobId req) n j → j.state.failed = true →
      (runNode env n j).1 = .ok () ∧ (runNode env n j).2.state = j.state) ∧
    ∀ hub gemini, env.hub.Alike hub → env.gemini.Alike gemini →
      ∀ jobId jobId' awaits writes schedule schedule',
        List.Forall₂ (Decision.Rel PyExn.Alike) schedule schedule' →
        List.Forall₂ (SamePayload jobId') (messages env jobId req awaits writes schedule)
          (messages { env with hub := hub, gemini := gemini } jobId' req awaits writes schedule') := by
  refine ⟨fun jobId awaits writes schedule p hp => messages_say_why hp,
    fun jobId j hj hfailed => first_failure hj hfailed, fun jobId n j hj hfailed => ?_,
    fun hub gemini hhub hgemini jobId jobId' awaits writes schedule schedule' hschedule =>
      messages_alike hhub hgemini jobId jobId' req awaits writes hschedule⟩
  -- no failed state comes to the first node
  have hn : n ≠ .parseInput := by
    rintro rfl
    rw [reaches_parseInput hj] at hfailed
    cases hfailed
  obtain ⟨hout, hstate, -⟩ := runNode_kept hn (show runNode env n j = _ from rfl) hfailed
  exact ⟨hout, hstate⟩

/-- A hub that answers every question with the same HTTP error. -/
def outageHub (body : Option Json) : Hub where
  fetchWeather _ _ _ _ := .error (.httpStatus 503 body)
  searchPlaces _ _ _ _ _ := .error (.httpStatus 503 body)
  fetchReviews _ _ _ := .error (.httpStatus 503 body)
  filterMobilityRadius _ _ _ _ := .error (.httpStatus 503 body)
  scoreIndoorBonus _ _ := .error (.httpStatus 503 body)
  estimateDwell _ := .error (.httpStatus 503 body)
  firstFailure := 0

/-- The sample environment with a hub that answers 503. -/
def outageEnv (body : Option Json) : Env := { sampleEnv with hub := outageHub body }

/-- Two outages that say the same are alike, whatever else is in their bodies. -/
theorem outageHub_alike {body body' : Option Json} (houtage : saysOutage body = saysOutage body')
    (hretry : saysRetryable body = saysRetryable body') : (outageHub body).Alike (outageHub body') := by
  constructor <;> intros <;> first
    | exact .error (.httpStatus 503 houtage hretry)
    | rfl

/-- The sample model is like itself. -/
theorem sampleGemini_alike : sampleGemini.Alike sampleGemini := by
  constructor <;> exact fun _ _ _ _ _ => ⟨rfl, SameResult.refl _⟩

/-- A body that names a host tells no more than an empty one. -/
theorem failure_contract_outage :
    let told := messages (outageEnv (some (.obj [("detail", .str "hub-1")]))) "first"
      (sampleTrip .mode1) 1 0 [.resume]
    let untold := messages (outageEnv none) "second" (sampleTrip .mode1) 1 0 [.resume]
    List.Forall₂ (SamePayload "second") told untold ∧
      told.map (·.code) = [some "upstream_unavailable"] := by
  refine ⟨?_, by decide +kernel⟩
  exact (failure_contract (outageEnv (some (.obj [("detail", .str "hub-1")])))
    (sampleTrip .mode1)).2.2.2 (outageHub none) sampleGemini (outageHub_alike rfl rfl)
    sampleGemini_alike "first" "second" 1 0 [.resume] [.resume] (.cons .resume .nil)

end MapServiceAgent.Native

import MapServiceAgent.Native.RunJob
import MapServiceAgent.Spec.InputCorrect
import MapServiceAgent.Spec.NodeFrames

/-!
# Runs of the graph

What a job that ends in a result went through, node by node.

## Key results

- `runJob_eq`: a job leaves one message, whichever way it ends
- `doneRun_of_mem`: a message with a result comes from a run through every node
-/

namespace MapServiceAgent.Native

variable {env : Env} {jobId : String} {req : AgentRequest} {s s' : AgentState} {j j' : Job}

/-! ### Coming to a node -/

/-- A node on the state that does not raise has returned the new one. -/
theorem ofState_ok {f : AgentState → Except PyExn AgentState}
    (h : JobM.ofState f j = (.ok (), j')) : f j.state = .ok j'.state := by
  rcases ofState_frame h with ⟨-, s', hs', rfl⟩ | ⟨e, hout, -, -⟩
  · exact hs'
  · exact nomatch hout

/-- Every node but the entry is reached from another one. -/
theorem pred_of_reaches {m : AgentNode}
    (h : (agentGraph env).Reaches (Job.start jobId req) m j) (hm : m ≠ .parseInput) :
    ∃ n i, (agentGraph env).Reaches (Job.start jobId req) n i ∧
      runNode env n i = (.ok (), j) ∧ edge j.state n = some m := by
  cases h with
  | entry => exact absurd rfl hm
  | step hi hnode hroute => exact ⟨_, _, hi, hnode, hroute⟩

/-- Where an edge may lead. -/
def AgentNode.successors : AgentNode → List AgentNode
  | .parseInput => [.fetchWeather, .buildPayload]
  | .fetchWeather => [.planStrategy, .loadGivenPlaces, .buildPayload]
  | .planStrategy => [.searchPlaces]
  | .loadGivenPlaces => [.recommendRoute, .buildPayload]
  | .searchPlaces => [.rulesFilter]
  | .rulesFilter => [.scoreAndRank]
  | .scoreAndRank => [.recommendPlaces]
  | .recommendPlaces => [.recommendRoute, .buildPayload]
  | .recommendRoute => [.buildTimeline, .buildPayload]
  | .buildTimeline => [.fitTimeBudget]
  | .fitTimeBudget => [.llmReason, .buildPayload]
  | .llmReason => [.buildPayload]
  | .buildPayload => [.publishDone]
  | .publishDone => []

/-- An edge leads to one of the successors. -/
theorem edge_mem_successors {s : AgentState} {n m : AgentNode} (h : edge s n = some m) :
    m ∈ n.successors := by
  cases n <;>
    simp only [edge, routeAfter, routeAfterWeather, routeAfterTimeBudget, Option.some.injEq,
      reduceCtorEq] at h <;>
    subst h <;> (repeat' split) <;> decide

/-- An unfailed job comes to `build_payload` from one of two nodes. -/
theorem edge_buildPayload {s : AgentState} {n : AgentNode} (hs : s.failed = false)
    (h : edge s n = some .buildPayload) : n = .fitTimeBudget ∨ n = .llmReason := by
  cases n <;>
    simp only [edge, routeAfter, routeAfterWeather, hs, Bool.false_eq_true, if_false,
      Option.some.injEq, reduceCtorEq] at h
  -- from the weather an unfailed job goes on to its places
  case fetchWeather => split at h <;> cases h
  case fitTimeBudget => exact .inl rfl
  case llmReason => exact .inr rfl

/-- A node with one predecessor is come to from there. -/
theorem reaches_pred {n m : AgentNode} (h : (agentGraph env).Reaches (Job.start jobId req) m j)
    (hm : m ≠ .parseInput) (hn : ∀ k, m ∈ k.successors → k = n) :
    ∃ i, (agentGraph env).Reaches (Job.start jobId req) n i ∧
      runNode env n i = (.ok (), j) ∧ edge j.state n = some m := by
  obtain ⟨k, i, hi, hk, he⟩ := pred_of_reaches h hm
  obtain rfl := hn k (edge_mem_successors he)
  exact ⟨i, hi, hk, he⟩

/-- The entry is only come to at the start. -/
theorem reaches_parseInput (h : (agentGraph env).Reaches (Job.start jobId req) .parseInput j) :
    j = Job.start jobId req := by
  generalize hn : AgentNode.parseInput = n at h
  cases h with
  | entry => rfl
  | @step n _ _ s hi hnode hroute =>
    -- no edge leads back up
    have hrank := rank_edge_lt hroute
    rw [← hn] at hrank
    cases n <;> exact absurd hrank (by decide)

/-- Nothing is published before the last node. -/
theorem published_of_reaches {n : AgentNode}
    (h : (agentGraph env).Reaches (Job.start jobId req) n j) : j.published = [] := by
  refine h.assert (fun _ j => j.published = []) rfl fun n m s s' hs hn hm => ?_
  rw [← hs]
  -- the node that publishes has no edge out
  refine runNode_published ?_ hn
  rintro rfl
  exact nomatch hm

/-! ### The message of a job -/

/-- What a job leaves: its result if the nodes came to one, and else a failure. -/
theorem runJob_eq (env : Env) (jobId : String) (req : AgentRequest) :
    (∃ j p, (agentGraph env).Reaches (Job.start jobId req) .publishDone j ∧
      donePayload j.state = .ok p ∧ (ainvoke env jobId req).1 = .ok () ∧
      (ainvoke env jobId req).2.state = j.state ∧ runJob env jobId req = [p]) ∨
    (∃ e, (ainvoke env jobId req).1 = .error e ∧
      runJob env jobId req = [failedPayload jobId (jobFailure e)]) := by
  have hrun := ainvoke_run env jobId req
  cases hr : ainvoke env jobId req with
  | mk out j' =>
    rw [hr] at hrun
    obtain ⟨m, j, hj, hnode, hend⟩ := StateGraph.run_sound .entry hrun
    have hnone := published_of_reaches hj
    rw [runJob, hr]
    by_cases hm : m = .publishDone
    · -- the last node publishes, or raises
      subst hm
      change publishDone j = (out, j') at hnode
      unfold publishDone at hnode
      split at hnode
      · rename_i p hp
        cases hnode
        exact .inl ⟨j, p, hj, hp, rfl, rfl, by simp [hnone]⟩
      · rename_i e _
        cases hnode
        exact .inr ⟨e, rfl, by simp [hnone]⟩
    · cases out with
      | error e =>
        have hpub := runNode_published hm hnode
        exact .inr ⟨e, rfl, by simp [hpub, hnone]⟩
      | ok _ =>
        -- only the last node has no edge
        have := hend rfl
        cases m <;> first | exact absurd rfl hm | exact nomatch this

/-- The timeline is not touched before its node. -/
theorem untimed_of_reaches {n : AgentNode} (hn : 4 ≤ n.rank)
    (h : (agentGraph env).Reaches (Job.start jobId req) n j) :
    j.state.timelineKeys = (none, none, none) := by
  refine h.assert (fun n j => 4 ≤ n.rank → j.state.timelineKeys = (none, none, none))
    (fun _ => rfl) (fun n m s s' hs hrun hm hrank => ?_) hn
  have hlt : m.rank < n.rank := rank_edge_lt hm
  -- neither of the timeline nodes is that far from the end
  refine (runNode_untimed ?_ ?_ hrun).trans (hs (by omega))
  · rintro rfl
    have : AgentNode.buildTimeline.rank = 4 := rfl
    omega
  · rintro rfl
    have : AgentNode.fitTimeBudget.rank = 3 := rfl
    omega

/-- A job that has failed anywhere leaves a failure. -/
theorem runJob_failed {n : AgentNode} (h : (agentGraph env).Reaches (Job.start jobId req) n j)
    (hfailed : (runNode env n j).2.state.failed = true) :
    ∃ p, runJob env jobId req = [p] ∧ p.status = .failed := by
  obtain ⟨fuel, hrun⟩ := StateGraph.run_of_reaches h (ainvoke_run env jobId req)
  -- the rest of the run keeps the error
  have hend : (ainvoke env jobId req).2.state.failed = true := by
    cases fuel with
    | zero => exact nomatch hrun
    | succ fuel =>
      rw [StateGraph.run] at hrun
      cases hnode : runNode env n j with
      | mk out j₁ =>
        rw [hnode] at hfailed
        rw [show (agentGraph env).node n j = (out, j₁) from hnode] at hrun
        -- the node itself may be the last, or the run goes on
        cases out with
        | error e =>
          rw [← Option.some.inj hrun]
          exact hfailed
        | ok _ =>
          dsimp only at hrun
          split at hrun
          · rw [← Option.some.inj hrun]
            exact hfailed
          · exact StateGraph.run_preserves (g := agentGraph env)
              (fun j => j.state.failed = true)
              (fun n j hj => (runNode_failed (show runNode env n j = _ from rfl) hj).2)
              hfailed hrun
  -- a failed state is published as failed, an exception too
  rcases runJob_eq env jobId req with ⟨j', p, -, hp, -, hstate, hjob⟩ | ⟨e, -, hjob⟩
  · rw [hstate] at hend
    rw [donePayload, if_pos hend] at hp
    cases hp
    exact ⟨_, hjob, rfl⟩
  · exact ⟨_, hjob, rfl⟩

/-- A job leaves a result or a failure. -/
theorem runJob_single (env : Env) (jobId : String) (req : AgentRequest) :
    ∃ p, runJob env jobId req = [p] := by
  rcases runJob_eq env jobId req with ⟨_, p, -, -, -, -, hjob⟩ | ⟨e, -, hjob⟩
  · exact ⟨p, hjob⟩
  · exact ⟨_, hjob⟩

/-! ### Runs that end in a result -/

/-- The job comes to run a node in this state. -/
def Comes (env : Env) (jobId : String) (req : AgentRequest) (n : AgentNode) (s : AgentState) :
    Prop :=
  ∃ j, (agentGraph env).Reaches (Job.start jobId req) n j ∧ j.state = s

/-- The states on the way to the ranked candidates. -/
structure SearchRun (env : Env) (jobId : String) (req : AgentRequest) (ranked : AgentState) where
  parsed : AgentState
  fetched : AgentState
  planned : AgentState
  searched : AgentState
  filtered : AgentState
  parse : parseInput (Job.start jobId req).state = .ok parsed
  fetch : fetchWeather env parsed = .ok fetched
  stage : fetched.request.stage ≠ .route
  plan : planStrategy env fetched = .ok planned
  comesSearch : Comes env jobId req .searchPlaces planned
  search : searchPlaces env planned = .ok searched
  comesFilter : Comes env jobId req .rulesFilter searched
  filter : rulesFilter env searched = .ok filtered
  rank : scoreAndRank env filtered = .ok ranked

/-- The states on the way to the verified places of a given route. -/
structure GivenRun (env : Env) (jobId : String) (req : AgentRequest) (given : AgentState) where
  parsed : AgentState
  fetched : AgentState
  parse : parseInput (Job.start jobId req).state = .ok parsed
  fetch : fetchWeather env parsed = .ok fetched
  stage : fetched.request.stage = .route
  comesLoad : Comes env jobId req .loadGivenPlaces fetched
  load : loadGivenPlaces env fetched = .ok given

/-- The two ways to a job's places. -/
inductive Drafted (env : Env) (jobId : String) (req : AgentRequest) : AgentState → Prop where
  | given {s : AgentState} (run : GivenRun env jobId req s) : Drafted env jobId req s
  | chosen {j j' : Job} (run : SearchRun env jobId req j.state)
      (comes : Comes env jobId req .recommendPlaces j.state)
      (choose : recommendPlaces env j = (.ok (), j')) : Drafted env jobId req j'.state

/-- Reasons are only asked for where the user did not set the route. -/
inductive Reasoned (env : Env) (s : AgentState) : AgentState → Prop where
  | skipped : s.request.stage = .route → Reasoned env s s
  | asked {j j' : Job} : j.state = s → llmReason env j = (.ok (), j') → Reasoned env s j'.state

/-- A run that ends in a result. -/
structure DoneRun (env : Env) (jobId : String) (req : AgentRequest) (p : JobDonePayload) where
  drafted : AgentState
  routed : AgentState
  timed : AgentState
  fitted : AgentState
  reasoned : AgentState
  built : AgentState
  draft : Drafted env jobId req drafted
  route : recommendRoute env drafted = .ok routed
  comesTime : Comes env jobId req .buildTimeline routed
  time : buildTimeline env routed = .ok timed
  fit : fitTimeBudget env timed = .ok fitted
  reason : Reasoned env fitted reasoned
  build : buildPayload reasoned = .ok built
  publish : donePayload built = .ok p
  ok : built.failed = false

/-- The weather is fetched of the parsed request. -/
theorem reaches_fetchWeather
    (h : (agentGraph env).Reaches (Job.start jobId req) .fetchWeather j) :
    parseInput (Job.start jobId req).state = .ok j.state := by
  obtain ⟨i, hi, hrun, -⟩ := reaches_pred (n := .parseInput) h (by decide)
    (by intro k; cases k <;> decide)
  obtain rfl := reaches_parseInput hi
  exact ofState_ok hrun

/-- A job comes to its selection by way of the search. -/
theorem searchRun_of_reaches
    (h : (agentGraph env).Reaches (Job.start jobId req) .recommendPlaces j) :
    Nonempty (SearchRun env jobId req j.state) := by
  -- back along the only path there is, node by node
  obtain ⟨j₅, h₅, hrank, -⟩ := reaches_pred (n := .scoreAndRank) h (by decide)
    (by intro k; cases k <;> decide)
  obtain ⟨j₄, h₄, hfilter, -⟩ := reaches_pred (n := .rulesFilter) h₅ (by decide)
    (by intro k; cases k <;> decide)
  obtain ⟨j₃, h₃, hsearch, -⟩ := reaches_pred (n := .searchPlaces) h₄ (by decide)
    (by intro k; cases k <;> decide)
  obtain ⟨j₂, h₂, hplan, -⟩ := reaches_pred (n := .planStrategy) h₃ (by decide)
    (by intro k; cases k <;> decide)
  obtain ⟨j₁, h₁, hfetch, hedge⟩ := reaches_pred (n := .fetchWeather) h₂ (by decide)
    (by intro k; cases k <;> decide)
  -- the edge to the plan is not taken for a route
  have hstage : j₂.state.request.stage ≠ .route := by
    intro hstage
    simp only [edge, routeAfterWeather, hstage, if_true, Option.some.injEq] at hedge
    split at hedge <;> cases hedge
  exact ⟨_, _, _, _, _, reaches_fetchWeather h₁, ofState_ok hfetch, hstage, ofState_ok hplan,
    ⟨j₃, h₃, rfl⟩, ofState_ok hsearch, ⟨j₄, h₄, rfl⟩, ofState_ok hfilter, ofState_ok hrank⟩

/-- A job whose places are given comes to them from the weather. -/
theorem givenRun_of_reaches
    (h : (agentGraph env).Reaches (Job.start jobId req) .loadGivenPlaces j)
    (hload : loadGivenPlaces env j.state = .ok j'.state) :
    Nonempty (GivenRun env jobId req j'.state) := by
  obtain ⟨j₁, h₁, hfetch, hedge⟩ := reaches_pred (n := .fetchWeather) h (by decide)
    (by intro k; cases k <;> decide)
  -- the edge to the given places is taken for a route only
  have hstage : j.state.request.stage = .route := by
    simp only [edge, routeAfterWeather, Option.some.injEq] at hedge
    split at hedge
    · cases hedge
    · split at hedge
      · assumption
      · cases hedge
  exact ⟨_, _, reaches_fetchWeather h₁, ofState_ok hfetch, hstage, ⟨j, h, rfl⟩, hload⟩

/-- A job comes to its route by one of the two ways to its places. -/
theorem drafted_of_reaches
    (h : (agentGraph env).Reaches (Job.start jobId req) .recommendRoute j) :
    Drafted env jobId req j.state := by
  obtain ⟨n, i, hi, hrun, hedge⟩ := pred_of_reaches h (by decide)
  have hn : n = .loadGivenPlaces ∨ n = .recommendPlaces := by
    have := edge_mem_successors hedge
    revert this
    cases n <;> decide
  rcases hn with rfl | rfl
  · -- the places were given
    obtain ⟨run⟩ := givenRun_of_reaches hi (ofState_ok hrun)
    exact .given run
  · -- the places were recommended
    obtain ⟨run⟩ := searchRun_of_reaches hi
    exact .chosen run ⟨i, hi, rfl⟩ hrun

/-- A state that did not fail has not failed before. -/
theorem failed_of_runNode {n : AgentNode} {out : Except PyExn Unit}
    (h : runNode env n j = (out, j')) (hok : j'.state.failed = false) : j.state.failed = false := by
  cases hj : j.state.failed with
  | false => rfl
  | true => exact absurd ((runNode_failed h hj).2.symm.trans hok) (by decide)

/-- A job comes to publish a result through every node of its way. -/
theorem doneRun_of_reaches {p : JobDonePayload}
    (h : (agentGraph env).Reaches (Job.start jobId req) .publishDone j)
    (hok : j.state.failed = false) (hp : donePayload j.state = .ok p) :
    Nonempty (DoneRun env jobId req p) := by
  obtain ⟨j₇, h₇, hbuild, -⟩ := reaches_pred (n := .buildPayload) h (by decide)
    (by intro k; cases k <;> decide)
  have hok₇ := failed_of_runNode hbuild hok
  -- the reasons were asked for, or the edge went past that node
  have hreason : ∃ j₆, (agentGraph env).Reaches (Job.start jobId req) .fitTimeBudget j₆ ∧
      ∃ s₆, fitTimeBudget env j₆.state = .ok s₆ ∧ Reasoned env s₆ j₇.state := by
    obtain ⟨n, i, hi, hrun, hedge⟩ := pred_of_reaches h₇ (by decide)
    cases n with
    | fitTimeBudget =>
      -- past that node goes a route only, as the job has not failed
      refine ⟨i, hi, j₇.state, ofState_ok hrun, .skipped ?_⟩
      simp only [edge, routeAfterTimeBudget, hok₇, Bool.false_eq_true, false_or,
        Option.some.injEq] at hedge
      split at hedge
      · assumption
      · cases hedge
    | llmReason =>
      obtain ⟨k, hk, hfit, -⟩ := reaches_pred (n := .fitTimeBudget) hi (by decide)
        (by intro k; cases k <;> decide)
      exact ⟨k, hk, i.state, ofState_ok hfit, .asked rfl hrun⟩
    | _ => exact absurd (edge_buildPayload hok₇ hedge) (by decide)
  obtain ⟨j₆, h₆, s₆, hfit, hreason⟩ := hreason
  obtain ⟨j₅, h₅, htime, -⟩ := reaches_pred (n := .buildTimeline) h₆ (by decide)
    (by intro k; cases k <;> decide)
  obtain ⟨j₄, h₄, hroute, -⟩ := reaches_pred (n := .recommendRoute) h₅ (by decide)
    (by intro k; cases k <;> decide)
  exact ⟨_, _, _, _, _, _, drafted_of_reaches h₄, ofState_ok hroute, ⟨j₅, h₅, rfl⟩,
    ofState_ok htime, hfit, hreason, ofState_ok hbuild, hp, hok⟩

/-- A message that reports a result comes from a run through every node. -/
theorem doneRun_of_mem {p : JobDonePayload} (h : p ∈ runJob env jobId req)
    (hdone : p.status = .done) : Nonempty (DoneRun env jobId req p) := by
  rcases runJob_eq env jobId req with ⟨j, p', hj, hp, -, -, hrun⟩ | ⟨e, -, hrun⟩
  · rw [hrun, List.mem_singleton] at h
    subst h
    refine doneRun_of_reaches hj ?_ hp
    -- a failed state is published as failed
    cases hfailed : j.state.failed with
    | false => rfl
    | true =>
      rw [donePayload, if_pos hfailed] at hp
      cases hp
      -- an exception leaves a failure
      cases hdone
  · rw [hrun, List.mem_singleton] at h
    subst h
    cases hdone

/-! ### States of a run that did not fail -/

/-- A node on the state, run on a job that has done nothing else. -/
theorem runNode_ofState {n : AgentNode} {f : AgentState → Except PyExn AgentState}
    (hn : runNode env n = JobM.ofState f) (h : f s = .ok s') :
    runNode env n { state := s } = (.ok (), { state := s' }) := by
  rw [hn, JobM.ofState, h]

/-- A node on the state that ended unfailed began so. -/
theorem unfailed_before (env : Env) (n : AgentNode) {f : AgentState → Except PyExn AgentState}
    (hn : runNode env n = JobM.ofState f) (h : f s = .ok s') (hok : s'.failed = false) :
    s.failed = false :=
  failed_of_runNode (runNode_ofState hn h) hok

/-- Reasons change nothing of the itinerary. -/
theorem Reasoned.kept (h : Reasoned env s s') :
    s'.places = s.places ∧ s'.visitOrder = s.visitOrder ∧ s'.legs = s.legs ∧
      s'.timeline = s.timeline ∧ s'.timelineStatus = s.timelineStatus ∧ s'.failed = s.failed ∧
      s'.request = s.request := by
  cases h with
  | skipped _ => exact ⟨rfl, rfl, rfl, rfl, rfl, rfl, rfl⟩
  | asked hj hreason =>
    subst hj
    rw [llmReason_frame hreason]
    exact ⟨rfl, rfl, rfl, rfl, rfl, rfl, rfl⟩

namespace DoneRun

variable {p : JobDonePayload} (run : DoneRun env jobId req p)

include run

/-- The state with the reasons has not failed. -/
theorem reasoned_ok : run.reasoned.failed = false :=
  unfailed_before env .buildPayload rfl run.build run.ok

/-- The state that fits has not failed. -/
theorem fitted_ok : run.fitted.failed = false :=
  run.reason.kept.2.2.2.2.2.1 ▸ run.reasoned_ok

/-- The state with the timeline has not failed. -/
theorem timed_ok : run.timed.failed = false :=
  unfailed_before env .fitTimeBudget rfl run.fit run.fitted_ok

/-- The state with the route has not failed. -/
theorem routed_ok : run.routed.failed = false :=
  unfailed_before env .buildTimeline rfl run.time run.timed_ok

/-- The state with the places has not failed. -/
theorem drafted_ok : run.drafted.failed = false :=
  unfailed_before env .recommendRoute rfl run.route run.routed_ok

end DoneRun

/-- A job that is ranked unfailed was not failed at any node before. -/
theorem SearchRun.unfailed (run : SearchRun env jobId req s) (hok : s.failed = false) :
    run.parsed.failed = false ∧ run.fetched.failed = false ∧ run.planned.failed = false ∧
      run.searched.failed = false ∧ run.filtered.failed = false := by
  have hfiltered := unfailed_before env .scoreAndRank rfl run.rank hok
  have hsearched := unfailed_before env .rulesFilter rfl run.filter hfiltered
  have hplanned := unfailed_before env .searchPlaces rfl run.search hsearched
  have hfetched := unfailed_before env .planStrategy rfl run.plan hplanned
  exact ⟨unfailed_before env .fetchWeather rfl run.fetch hfetched, hfetched,
    hplanned, hsearched, hfiltered⟩

/-- No node on the way to the ranked candidates writes the request. -/
theorem SearchRun.request (run : SearchRun env jobId req s) (hok : s.failed = false) :
    run.fetched.request = req ∧ run.planned.request = req ∧ run.searched.request = req ∧
      run.filtered.request = req ∧ s.request = req := by
  obtain ⟨hparsed, -, -, -, -⟩ := run.unfailed hok
  -- no node after the first touches the request
  have hfetched : run.fetched.request = req := by
    rw [fetchWeather_frame run.fetch, (parseInput_ok run.parse hparsed).1]
    rfl
  have hplanned : run.planned.request = req :=
    (congrArg AgentState.request (planStrategy_frame run.plan)).trans hfetched
  have hsearched : run.searched.request = req :=
    (congrArg AgentState.request (searchPlaces_frame run.search)).trans hplanned
  have hfiltered : run.filtered.request = req :=
    (congrArg AgentState.request (rulesFilter_frame run.filter)).trans hsearched
  exact ⟨hfetched, hplanned, hsearched, hfiltered,
    (congrArg AgentState.request (scoreAndRank_frame run.rank)).trans hfiltered⟩

/-- The state a job is ranked in: its request is a valid one and its plan
    covers the trip. -/
theorem SearchRun.ranked (run : SearchRun env jobId req s) (hok : s.failed = false) :
    s.request = req ∧ req.stage ≠ .route ∧ ValidRequest req ∧
      ∃ plan, s.plan = some plan ∧ plan.Covers (numDays req) := by
  obtain ⟨hparsed, hfetched, -, -, -⟩ := run.unfailed hok
  obtain ⟨hreq, -, -, -, hs⟩ := run.request hok
  obtain ⟨plan, hplan, hcovers⟩ := planStrategy_ok run.plan hfetched
  refine ⟨hs, hreq ▸ run.stage, (parseInput_ok run.parse hparsed).2, plan, ?_, hreq ▸ hcovers⟩
  -- the plan is not written after its node
  calc s.plan
    _ = run.filtered.plan := (congrArg AgentState.plan (scoreAndRank_frame run.rank)).trans rfl
    _ = run.searched.plan := (congrArg AgentState.plan (rulesFilter_frame run.filter)).trans rfl
    _ = run.planned.plan := (congrArg AgentState.plan (searchPlaces_frame run.search)).trans rfl
    _ = some plan := congrArg AgentState.plan hplan

/-! ### A sample trip -/

/-- Decimal digits read as their number, every distance is zero. -/
def samplePlatform : Platform where
  floatOfStr _ := none
  intOfStr s := (digits? s.toList).map Int.ofNat
  intOfStr_digits cs n h := by simp [h]
  floatRepr _ := "0.0"
  strRepr s := s
  coerceFloat _ := none
  coerceInt _ := none
  straightKm _ _ _ _ := 0

/-- The rules and the timeline are on, reviews and personalization off. -/
def sampleSettings : Settings where
  geminiMaxCallsPerRequest := 4
  reviewsEnrichEnabled := false
  reviewsMaxPlaces := 0
  reviewsDisplay := 0
  reviewsFetchCapPerJob := 0
  candidatesMaxBase := 20
  candidatesPerDay := 6
  personalizationEnabled := false
  rulesEnabled := true
  timelineEnabled := true
  timelineBufferMinutes := 10

/-- A candidate as the hub gives it. -/
def sampleCandidate (cid : String) : Json :=
  .obj [("content_id", .str cid), ("source", .str "kakao"), ("name", .str cid),
    ("lat", .float 37), ("lng", .float 127)]

/-- The hub knows two places, and how long a visit to one of them takes. -/
def sampleHub : Hub where
  fetchWeather _ _ _ _ := .ok (.obj [])
  searchPlaces _ _ _ _ _ :=
    .ok (.obj [("places", .arr [sampleCandidate "a", sampleCandidate "b"])])
  fetchReviews _ _ _ := .ok (.obj [])
  filterMobilityRadius _ _ _ candidates := .ok (.obj [("filtered", .arr candidates)])
  scoreIndoorBonus _ _ := .ok (.obj [])
  estimateDwell _ := .ok (.obj [("estimates", .arr [
    .obj [("content_id", .str "a"), ("stay_minutes", .int 60), ("source", .str "category")]])])
  firstFailure := 0

/-- The model's choice of one candidate, for the first day. -/
def sampleSelection (index : Int) (h : 0 ≤ index) : PlaceSelection where
  index := index
  day := 1
  recommendedVisitTime := ""
  index_nonneg := h
  one_le_day := le_rfl
  time_valid := by decide

/-- The model picks both places, and is too slow to give its reasons. -/
def sampleGemini : Gemini where
  selection _ _ _ :=
    ([], .ok ⟨[sampleSelection 0 (by decide), sampleSelection 1 (by decide)]⟩)
  reasons _ _ _ := ([], .error .timeoutError)

/-- The platform, hub and model of the sample, without counts of earlier sessions. -/
def sampleEnv : Env := ⟨samplePlatform, sampleSettings, sampleHub, sampleGemini, []⟩

/-- One day, from nine to twenty. -/
def sampleDates : DateRange where
  dateStart := ⟨739803, by decide, by decide⟩
  dateEnd := ⟨739803, by decide, by decide⟩
  timeStart := ⟨9, 0, 0, 0, none, by decide, by decide, by decide, by decide⟩
  timeEnd := ⟨20, 0, 0, 0, none, by decide, by decide, by decide, by decide⟩

/-- A place the user names, by its identifier. -/
def sampleGiven (cid : String) (h : (lengthIn 1 64 cid && cleanText cid) = true) :
    SelectedPlace where
  name := cid
  address := ""
  lat := 37
  lng := 127
  day := 1
  contentId := some cid
  category := none
  name_valid := by
    simp only [lengthIn, Bool.and_eq_true, decide_eq_true_eq] at h ⊢
    exact ⟨⟨h.1.1, by omega⟩, h.2⟩
  address_valid := by decide
  lat_valid := by decide
  lng_valid := by decide
  one_le_day := le_rfl
  contentId_valid := by
    simp only [Option.all_some, lengthIn, Bool.and_eq_true, decide_eq_true_eq] at h ⊢
    exact ⟨⟨Nat.zero_le _, h.1.2⟩, h.2⟩
  category_valid := rfl

/-- A day's trip on foot. -/
def sampleRequest (stage : Stage) (places : List SelectedPlace)
    (h : (1 ≤ places.length && places.length ≤ 10) = true) : AgentRequest where
  date := sampleDates
  budget := none
  theme := none
  mobility := some .walk
  province := "p"
  city := "c"
  stage := stage
  optimize := false
  exclude := none
  places := some places
  province_valid := by decide
  city_valid := by decide
  exclude_valid := rfl
  places_valid := h

/-- Both places, named by the user. -/
def sampleTrip (stage : Stage) : AgentRequest :=
  sampleRequest stage [sampleGiven "a" (by decide), sampleGiven "b" (by decide)] rfl

/-- The sample trip ends in a result on every path, and in time. -/
theorem sampleTrip_done (stage : Stage) :
    ∃ p, runJob sampleEnv "j" (sampleTrip stage) = [p] ∧ p.status = .done ∧
      p.timelineStatus = some .ok := by
  have h : (runJob sampleEnv "j" (sampleTrip stage)).map (fun p => (p.status, p.timelineStatus)) =
      [(.done, some .ok)] := by
    -- each of the stages is run
    cases stage <;> decide +kernel
  obtain ⟨p, rest, hrun, hp, hrest⟩ := List.map_eq_cons_iff.mp h
  rw [List.map_eq_nil_iff.mp hrest] at hrun
  obtain ⟨hdone, htime⟩ := Prod.mk.inj hp
  exact ⟨p, hrun, hdone, htime⟩

end MapServiceAgent.Native

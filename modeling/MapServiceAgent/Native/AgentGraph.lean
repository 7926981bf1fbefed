import MapServiceAgent.ForStd.StateGraph
import MapServiceAgent.Native.ReasonNode
import MapServiceAgent.Native.SelectionNodes
import MapServiceAgent.Native.TimelineNodes

/-!
# The recommendation graph

`build_payload` and `publish_done`, and the graph `build_graph` makes of all
nodes. The nodes hand the state on as they return it; the two keys a node ever
takes out of it, `weather` and `timeline_overflow_days`, are not read after
that.
-/

namespace MapServiceAgent.Native

/-! ### build_payload -/

/-- `model_copy(update=update)` with what the last nodes found out. -/
def Place.enrich (p : Place) (reason : Option String) (bullets : Option (List String))
    (slot : Option Slot) : Place :=
  { p with
    valid := p.valid
    reason := reason.or p.reason
    bullets := bullets.or p.bullets
    stayMinutes := (slot.map (·.stayMinutes)).or p.stayMinutes
    visitStart := (slot.map (·.visitStart)).or p.visitStart
    visitEnd := (slot.map (·.visitEnd)).or p.visitEnd
    staySource := (slot.bind (·.staySource)).or p.staySource }

/-- The reasons, the summaries and the visit times go to the places they are keyed by. -/
def buildPayload (s : AgentState) : Except PyExn AgentState :=
  if s.failed then .ok s
  else
    let reasons := s.reasons.getD []
    let summaries := s.summaries.getD []
    let timeline := s.timeline.getD []
    match s.places with
    -- a state without places is passed on: `publish_done` will see to it
    | none => .ok s
    | some places =>
      .ok { s with places := some (places.map fun p =>
        p.enrich (reasons.lookup p.placeId) (summaries.lookup p.placeId)
          (timeline.lookup p.placeId)) }

/-! ### publish_done -/

/-- A failed job's message. -/
def failedPayload (jobId : String) (f : Failure) : JobDonePayload where
  jobId := jobId
  status := .failed
  error := some f.error
  code := some f.code
  retryable := some f.retryable

/-- `state[key]`. -/
def item {α : Type} : Option α → Except PyExn α
  | some v => .ok v
  | none => .error .keyError

/-- The message `publish_done` builds. -/
def donePayload (s : AgentState) : Except PyExn JobDonePayload :=
  -- the text of the failure is its code, nothing else is published
  if s.failed then
    .ok (failedPayload s.jobId
      (failure (s.code.getD "generation_failed") (s.retryable.getD false)))
  else do
    return {
      jobId := s.jobId
      status := .done
      places := some (← item s.places)
      visitOrder := some (← item s.visitOrder)
      legs := some (← item s.legs)
      clothing := s.clothing
      timelineStatus := s.timelineStatus
      warnings := s.warnings.filter (· ≠ []) }

/-- The payload is handed to the publisher, unless building it raises. -/
def publishDone : JobM Unit := fun j =>
  match donePayload j.state with
  | .ok payload => (.ok (), { j with published := j.published ++ [payload] })
  | .error e => (.error e, j)

/-! ### build_graph -/

/-- The nodes of the compiled graph. -/
inductive AgentNode where
  | parseInput
  | fetchWeather
  | planStrategy
  | loadGivenPlaces
  | searchPlaces
  | rulesFilter
  | scoreAndRank
  | recommendPlaces
  | recommendRoute
  | buildTimeline
  | fitTimeBudget
  | llmReason
  | buildPayload
  | publishDone
deriving DecidableEq, Repr

/-- The function `build_graph` registers under each name. -/
def runNode (env : Env) : AgentNode → JobM Unit
  | .parseInput => JobM.ofState Native.parseInput
  | .fetchWeather => JobM.ofState (Native.fetchWeather env)
  | .planStrategy => JobM.ofState (Native.planStrategy env)
  | .loadGivenPlaces => JobM.ofState (Native.loadGivenPlaces env)
  | .searchPlaces => JobM.ofState (Native.searchPlaces env)
  | .rulesFilter => JobM.ofState (Native.rulesFilter env)
  | .scoreAndRank => JobM.ofState (Native.scoreAndRank env)
  | .recommendPlaces => Native.recommendPlaces env
  | .recommendRoute => JobM.ofState (Native.recommendRoute env)
  | .buildTimeline => JobM.ofState (Native.buildTimeline env)
  | .fitTimeBudget => JobM.ofState (Native.fitTimeBudget env)
  | .llmReason => Native.llmReason env
  | .buildPayload => JobM.ofState Native.buildPayload
  | .publishDone => Native.publishDone

/-- `_route_after(next)`. -/
def routeAfter (next : AgentNode) (s : AgentState) : AgentNode :=
  if s.failed then .buildPayload else next

/-- `_route_after_weather`. -/
def routeAfterWeather (s : AgentState) : AgentNode :=
  if s.failed then .buildPayload
  else if s.request.stage = .route then .loadGivenPlaces
  else .planStrategy

/-- `_route_after_time_budget`. -/
def routeAfterTimeBudget (s : AgentState) : AgentNode :=
  if s.failed ∨ s.request.stage = .route then .buildPayload else .llmReason

/-- The edges of the graph. -/
def edge (s : AgentState) : AgentNode → Option AgentNode
  | .parseInput => some (routeAfter .fetchWeather s)
  | .fetchWeather => some (routeAfterWeather s)
  -- these go on in any case: the nodes themselves pass a failed state on
  | .planStrategy => some .searchPlaces
  | .loadGivenPlaces => some (routeAfter .recommendRoute s)
  | .searchPlaces => some .rulesFilter
  | .rulesFilter => some .scoreAndRank
  | .scoreAndRank => some .recommendPlaces
  | .recommendPlaces => some (routeAfter .recommendRoute s)
  | .recommendRoute => some (routeAfter .buildTimeline s)
  | .buildTimeline => some .fitTimeBudget
  | .fitTimeBudget => some (routeAfterTimeBudget s)
  | .llmReason => some .buildPayload
  | .buildPayload => some .publishDone
  | .publishDone => none

/-- `build_graph`. -/
def agentGraph (env : Env) : StateGraph AgentNode PyExn Job where
  entry := .parseInput
  node := runNode env
  route n j := edge j.state n

/-- Nodes still to come after a node, at most. -/
def AgentNode.rank : AgentNode → Nat
  | parseInput => 12
  | fetchWeather => 11
  | planStrategy => 10
  | searchPlaces => 9
  | rulesFilter => 8
  | scoreAndRank => 7
  | recommendPlaces => 6
  | loadGivenPlaces => 6
  | recommendRoute => 5
  | buildTimeline => 4
  | fitTimeBudget => 3
  | llmReason => 2
  | buildPayload => 1
  | publishDone => 0

/-- Every edge of the graph leads to a lower rank, so no node comes twice. -/
theorem rank_edge_lt {s : AgentState} {n m : AgentNode} (h : edge s n = some m) :
    m.rank < n.rank := by
  cases n <;>
    simp only [edge, routeAfter, routeAfterWeather, routeAfterTimeBudget, Option.some.injEq,
      reduceCtorEq] at h <;>
    subst h <;> (repeat' split) <;> decide

/-- The job `_run_job` starts with. -/
def Job.start (jobId : String) (req : AgentRequest) : Job := { state := { jobId, request := req } }

/-- `graph.ainvoke`, to its end. -/
def ainvoke (env : Env) (jobId : String) (req : AgentRequest) : Except PyExn Unit × Job :=
  ((agentGraph env).run 13 .parseInput (Job.start jobId req)).getD (.ok (), Job.start jobId req)

/-- The fuel suffices. -/
theorem ainvoke_run (env : Env) (jobId : String) (req : AgentRequest) :
    (agentGraph env).run 13 .parseInput (Job.start jobId req) = some (ainvoke env jobId req) := by
  have hsome : ((agentGraph env).run 13 .parseInput (Job.start jobId req)).isSome :=
    StateGraph.run_isSome AgentNode.rank (fun n m s hm => rank_edge_lt hm) _ (by decide)
  obtain ⟨r, hr⟩ := Option.isSome_iff_exists.mp hsome
  rw [ainvoke, hr, Option.getD_some]

end MapServiceAgent.Native

import MapServiceAgent.Native.JobEvents
import MapServiceAgent.Spec.RunJobCorrect

/-!
# What the status stream shows of a job

A job announces the nodes it comes by, in the order of the graph: the line of its
stage up to where it stops or fails, and then `build_payload`. Nothing is
announced once the result is out, and whatever becomes of an announcement, the
job goes on as without it.

## Key results

- `path_line`: the nodes a job comes by
- `exec_jobCo`: both streams of a job with announcements
- `announced_stages`: the status stream of a job
- `status_best_effort`: no status publisher changes what a job publishes
-/

namespace MapServiceAgent.Native

open Co

variable {env : Env} {publisher : Option StatusPublisher} {waits : Waits} {jobId : String}
  {req : AgentRequest} {j : Job}

/-! ### The line of a stage -/

/-- The nodes a job of a stage comes by when nothing fails, before
    `build_payload`. -/
def AgentNode.line : Stage → List AgentNode
  | .route => [parseInput, fetchWeather, loadGivenPlaces, recommendRoute, buildTimeline,
      fitTimeBudget]
  | _ => [parseInput, fetchWeather, planStrategy, searchPlaces, rulesFilter, scoreAndRank,
      recommendPlaces, recommendRoute, buildTimeline, fitTimeBudget, llmReason]

/-- What comes after a node in the line. -/
def AgentNode.after (stage : Stage) (n : AgentNode) : List AgentNode :=
  ((line stage).dropWhile (· != n)).tail

/-- The last node is on no line. -/
theorem ne_publishDone {stage : Stage} {n : AgentNode} (hn : n ∈ AgentNode.line stage) :
    n ≠ .publishDone := by
  rintro rfl
  cases stage <;> exact absurd hn (by decide)

/-- An edge out of the line leads on in it, or to `build_payload`: from its last
    node, or when the job has failed. -/
theorem edge_line {s : AgentState} {n m : AgentNode} (hn : n ∈ AgentNode.line s.request.stage)
    (h : edge s n = some m) :
    (m = .buildPayload ∧ (s.failed = false → n.after s.request.stage = [])) ∨
      m ∈ AgentNode.line s.request.stage ∧
        n.after s.request.stage = m :: m.after s.request.stage := by
  cases hstage : s.request.stage <;> cases hfailed : s.failed <;> rw [hstage] at hn <;> cases n <;>
    first
    | exact absurd hn (by decide)
    | (simp only [edge, routeAfter, routeAfterWeather, routeAfterTimeBudget, hfailed, hstage,
        Bool.false_eq_true, if_false, if_true, reduceCtorEq, or_self, or_true, true_or,
        Option.some.injEq] at h
       subst h
       first
       | exact .inl ⟨rfl, fun _ => by decide⟩
       | exact .inl ⟨rfl, fun h => absurd h (by decide)⟩
       | exact .inr ⟨by decide, by decide⟩)

/-- The payload node never raises. -/
theorem buildPayload_returns (s : AgentState) : ∃ s', buildPayload s = .ok s' := by
  unfold buildPayload
  split
  · exact ⟨_, rfl⟩
  · dsimp only
    split <;> exact ⟨_, rfl⟩

/-! ### The nodes a job comes by -/

/-- The nodes of a job from node `n` on, up to `publish_done`. -/
abbrev nodesFrom (env : Env) (fuel : Nat) (n : AgentNode) (j : Job) : List AgentNode :=
  (agentGraph env).path (· == .publishDone) fuel n j

/-- Where that leaves the job. -/
abbrev jobFrom (env : Env) (fuel : Nat) (n : AgentNode) (j : Job) : Except PyExn Job :=
  (agentGraph env).runTo (· == .publishDone) (.other "GraphRecursionError") fuel n j

/-- `build_payload` always comes to the last node. -/
theorem path_buildPayload (env : Env) (fuel : Nat) (j : Job) :
    nodesFrom env (fuel + 2) .buildPayload j = [.buildPayload] ∧
      ∃ t, jobFrom env (fuel + 2) .buildPayload j = .ok t ∧ t.state.failed = j.state.failed := by
  obtain ⟨s', hs'⟩ := buildPayload_returns j.state
  have hnode : runNode env .buildPayload j = (.ok (), { j with state := s' }) := by
    rw [runNode, JobM.ofState, hs']
  refine ⟨?_, { j with state := s' }, ?_, ?_⟩
  · simp [nodesFrom, StateGraph.path, agentGraph, hnode, edge]
  · simp [jobFrom, StateGraph.runTo, agentGraph, hnode, edge]
  · rw [buildPayload_frame hs']
    rfl

/-- From a node of the line, a job comes by the next ones up to where it stops, and
    by `build_payload` if no node raises. A job that comes there unfailed has come
    by the whole line. -/
theorem path_line (env : Env) {fuel : Nat} {n : AgentNode}
    (hn : n ∈ AgentNode.line j.state.request.stage) (hfuel : n.rank < fuel) :
    ∃ k, nodesFrom env fuel n j = n :: (n.after j.state.request.stage).take k ++
        (if (jobFrom env fuel n j).isOk then [.buildPayload] else []) ∧
      ∀ t, jobFrom env fuel n j = .ok t → t.state.failed = false →
        (n.after j.state.request.stage).length ≤ k := by
  induction fuel generalizing n j with
  | zero => exact absurd hfuel (Nat.not_lt_zero _)
  | succ fuel ih =>
    have hlast : (n == .publishDone) = false := beq_eq_false_iff_ne.mpr (ne_publishDone hn)
    cases hnode : runNode env n j with
    | mk out j' =>
      have hreq := runNode_request hnode
      cases out with
      | error e =>
        -- the node raises: it is the last one
        refine ⟨0, ?_, ?_⟩
        · simp [nodesFrom, jobFrom, StateGraph.path, StateGraph.runTo, agentGraph, hlast, hnode,
            Except.isOk, Except.toBool]
        · simp [jobFrom, StateGraph.runTo, agentGraph, hlast, hnode]
      | ok _ =>
        cases hroute : edge j'.state n with
        | none =>
          -- only the last node has no edge
          cases n <;> first | exact absurd rfl (ne_publishDone hn) | cases hroute
        | some m =>
          have hpath : nodesFrom env (fuel + 1) n j = n :: nodesFrom env fuel m j' := by
            simp [nodesFrom, StateGraph.path, agentGraph, hlast, hnode, hroute]
          have hjob : jobFrom env (fuel + 1) n j = jobFrom env fuel m j' := by
            simp [jobFrom, StateGraph.runTo, agentGraph, hlast, hnode, hroute]
          have hrank := rank_edge_lt hroute
          rw [← hreq] at hn
          rw [hpath, hjob, ← hreq]
          rcases edge_line hn hroute with ⟨rfl, hend⟩ | ⟨hm, hafter⟩
          · -- the line ends here, or the job has failed
            have hlow : AgentNode.rank .buildPayload = 1 := rfl
            obtain ⟨fuel, rfl⟩ : ∃ f, fuel = f + 2 := ⟨fuel - 2, by omega⟩
            obtain ⟨hnodes, t, ht, hfailed⟩ := path_buildPayload env fuel j'
            rw [hnodes, ht]
            refine ⟨0, rfl, fun t' ht' hok => ?_⟩
            cases ht'
            rw [hend (hfailed.symm.trans hok)]
            rfl
          · -- one node further along the line
            obtain ⟨k, hnodes, hall⟩ := ih (n := m) (j := j') hm (by omega)
            refine ⟨k + 1, ?_, fun t ht hok => ?_⟩
            · rw [hnodes, hafter]
              rfl
            · rw [hafter]
              exact Nat.succ_le_succ (hall t ht hok)

/-- The nodes of a job leave it somewhere exactly when it comes to its last one. -/
theorem jobFrom_isOk_iff (env : Env) (jobId : String) (req : AgentRequest) :
    (jobFrom env recursionLimit .parseInput (Job.start jobId req)).isOk = true ↔
      ∃ s, Comes env jobId req .publishDone s := by
  have hfuel : AgentNode.rank .parseInput < recursionLimit := by decide
  constructor
  · intro hok
    rcases StateGraph.runTo_sound (· == AgentNode.publishDone)
        (.other "GraphRecursionError") AgentNode.rank (fun n m s h => rank_edge_lt h)
        (.entry : StateGraph.Reaches (agentGraph env) (Job.start jobId req) _ _) hfuel with
        ⟨t, m, -, hreach, hm⟩ | ⟨t, m, u, -, -, hm, -, hroute⟩ | ⟨e, m, u, t, ht, -, -, -⟩
    · obtain rfl : m = .publishDone := eq_of_beq hm
      exact ⟨t.state, t, hreach, rfl⟩
    · -- only the last node has no edge
      cases m <;> first | exact absurd hm (by decide) | cases hroute
    · -- a node has raised
      have hjob : jobFrom env recursionLimit .parseInput (Job.start jobId req) = .error e := ht
      rw [hjob] at hok
      cases hok
  · rintro ⟨s, j, hj, -⟩
    have hend : ∀ n (j : Job), (n == AgentNode.publishDone) = true →
        (agentGraph env).route n j = none := by
      intro n j hn
      obtain rfl := eq_of_beq hn
      rfl
    have hjob : jobFrom env recursionLimit .parseInput (Job.start jobId req) = .ok j :=
      StateGraph.runTo_of_reaches AgentNode.rank (fun n m s h => rank_edge_lt h) hend hfuel hj rfl
    rw [hjob]
    rfl

/-- `parse_input` is the first node of any line. -/
theorem line_eq_cons (stage : Stage) :
    AgentNode.line stage = .parseInput :: AgentNode.parseInput.after stage ∧
      .parseInput ∈ AgentNode.line stage := by
  cases stage <;> exact ⟨by decide, by decide⟩

/-! ### What the nodes come to -/

/-- Up to its last node, a job runs as the coroutine of its nodes does. -/
theorem comeTo_eq (env : Env) (jobId : String) (req : AgentRequest) :
    comeTo env jobId req =
      ofExcept ((jobFrom env recursionLimit .parseInput (Job.start jobId req)).bind fun j =>
        donePayload j.state) := by
  have hrun := ainvoke_run env jobId req
  have hfuel : AgentNode.rank .parseInput < recursionLimit := by decide
  rcases StateGraph.runTo_sound (· == AgentNode.publishDone)
      (.other "GraphRecursionError") AgentNode.rank (fun n m s h => rank_edge_lt h)
      (.entry : StateGraph.Reaches (agentGraph env) (Job.start jobId req) _ _) hfuel with
      ⟨t, m, ht, hreach, hm⟩ | ⟨t, m, u, -, -, hm, -, hroute⟩ |
      ⟨e, m, u, t, ht, hreach, -, hnode⟩
  · -- the end is the last node's, on the state the nodes have come to
    obtain rfl : m = .publishDone := eq_of_beq hm
    obtain ⟨fuel, hlast⟩ := StateGraph.run_of_reaches hreach hrun
    have hjob : jobFrom env recursionLimit .parseInput (Job.start jobId req) = .ok t := ht
    have hbind : (Except.ok t).bind (fun j => donePayload j.state) = donePayload t.state := rfl
    rw [hjob, hbind]
    cases fuel with
    | zero => cases hlast
    | succ fuel =>
      simp only [StateGraph.run, agentGraph, runNode, publishDone] at hlast
      cases hp : donePayload t.state with
      | ok p =>
        rw [hp] at hlast
        have := Option.some.inj hlast
        rw [comeTo_eq_ret (by rw [← this]) (by rw [← this]; exact hp)]
        rfl
      | error e =>
        rw [hp] at hlast
        have := Option.some.inj hlast
        exact comeTo_eq_raise (by rw [← this])
  · -- only the last node has no edge
    cases m <;> first | exact absurd hm (by decide) | cases hroute
  · obtain ⟨fuel, hlast⟩ := StateGraph.run_of_reaches hreach hrun
    have hjob : jobFrom env recursionLimit .parseInput (Job.start jobId req) = .error e := ht
    rw [hjob]
    cases fuel with
    | zero => cases hlast
    | succ fuel =>
      rw [StateGraph.run, hnode] at hlast
      have := Option.some.inj hlast
      exact comeTo_eq_raise (by rw [← this])

/-! ### Announcements -/

/-- What node `n` of a job announces. -/
def announcement (jobId : String) (n : AgentNode) : StatusMessage where
  jobId := jobId
  stage := n.stage

/-- A node announces itself at most, whatever strikes on the way to it. -/
theorem sent_aroundNode (waits : Waits) (jobId : String) (n : AgentNode)
    (ds : List (Decision PyExn)) :
    ((aroundNode (some publishStatus) waits jobId n).exec ds).sent.Sublist
      [announcement jobId n] := by
  -- the announcement is sent, or struck
  have hsend : ((send (announcement jobId n) : Co PyExn StatusMessage Unit).exec ds).sent.Sublist
      [announcement jobId n] := by
    cases ds with
    | nil => exact List.Sublist.refl _
    | cons d ds =>
      cases d with
      | resume => exact List.Sublist.refl _
      | strike served e => cases served <;> simp [send, exec, Ran.after]
  -- and what it raises is not sent
  have hemit : ((emitStage (some publishStatus) jobId n).exec ds).sent =
      ((send (announcement jobId n) : Co PyExn StatusMessage Unit).exec ds).sent := by
    rw [emitStage, exec_tryCatch, sent_andThen_quiet sent_ret]
    · rfl
    · intro e ds'
      split
      · exact sent_ret _ _
      · exact sent_raise _ _
  rw [aroundNode, exec_bind, sent_andThen_quiet _ sent_raise, hemit]
  · exact hsend
  · exact fun _ ds' => by rw [exec_lift]

/-- What a publisher that fails as any exception does makes of an announcement:
    the node goes on. -/
theorem exec_aroundNode {publisher : Option StatusPublisher}
    (hpublisher : ∀ m, ∃ sent out, (callPublisher publisher m).exec [] = ⟨sent, out, []⟩ ∧
      ∀ e, out = .error e → e.isException = true) (waits : Waits) (jobId : String) (n : AgentNode) :
    (aroundNode publisher waits jobId n).exec [] =
      ⟨((callPublisher publisher (announcement jobId n)).exec []).sent, .ok (), []⟩ := by
  have hawaits : ∀ k, strikeWithin k ([] : List (Decision PyExn)) = none := fun k => by
    cases k <;> rfl
  obtain ⟨sent, out, hcall, hout⟩ := hpublisher (announcement jobId n)
  rw [aroundNode, emitStage, exec_bind, exec_tryCatch]
  change ((((callPublisher publisher (announcement jobId n)).exec []).andThen _ _).andThen _ _) = _
  rw [hcall]
  cases out with
  | ok _ => simp [Ran.andThen, Ran.after, exec, exec_lift, exec_awaits, hawaits]
  -- what the publisher raised is an exception, and is caught
  | error e => simp [Ran.andThen, Ran.after, exec, exec_lift, exec_awaits, hawaits, hout e rfl]

/-- The nodes, each after its announcement, and the payload of the last one. -/
theorem stagesCo_eq (env : Env) (publisher : Option StatusPublisher) (waits : Waits)
    (jobId : String) (req : AgentRequest) :
    stagesCo env publisher waits jobId req =
      ((agentGraph env).driveCo (aroundNode publisher waits jobId) (· == .publishDone)
        (.other "GraphRecursionError") recursionLimit .parseInput (Job.start jobId req)).bind
          fun j => Co.ofExcept (donePayload j.state) := by
  rw [stagesCo]
  congr
  funext j
  cases donePayload j.state <;> rfl

/-- Undisturbed, the coroutine announces the nodes of the path and ends as they do. -/
theorem exec_stagesCo {publisher : Option StatusPublisher}
    (hpublisher : ∀ m, ∃ sent out, (callPublisher publisher m).exec [] = ⟨sent, out, []⟩ ∧
      ∀ e, out = .error e → e.isException = true) (env : Env) (waits : Waits) (jobId : String)
    (req : AgentRequest) :
    (stagesCo env publisher waits jobId req).exec [] =
      ⟨(nodesFrom env recursionLimit .parseInput (Job.start jobId req)).flatMap fun n =>
          ((callPublisher publisher (announcement jobId n)).exec []).sent,
        (jobFrom env recursionLimit .parseInput (Job.start jobId req)).bind fun j =>
          donePayload j.state, []⟩ := by
  -- each node is announced as it begins
  have hdrive : ((agentGraph env).driveCo (aroundNode publisher waits jobId) (· == .publishDone)
      (.other "GraphRecursionError") recursionLimit .parseInput (Job.start jobId req)).exec [] =
      ⟨(nodesFrom env recursionLimit .parseInput (Job.start jobId req)).flatMap fun n =>
          ((callPublisher publisher (announcement jobId n)).exec []).sent,
        jobFrom env recursionLimit .parseInput (Job.start jobId req), []⟩ :=
    StateGraph.exec_driveCo_nil (exec_aroundNode hpublisher waits jobId) _ _ _
  rw [stagesCo_eq, exec_bind, hdrive, Ran.andThen]
  cases jobFrom env recursionLimit .parseInput (Job.start jobId req) with
  | error e => simp [exec, Ran.after, Except.bind]
  | ok j => simp [exec_ofExcept, Ran.after, Except.bind]

/-! ### The two streams -/

/-- Renaming messages goes through the timer. -/
theorem mapMsg_waitFor {μ ν α : Type} (f : μ → Option ν) (m : Co PyExn μ α) :
    (waitFor m).mapMsg f = waitFor (m.mapMsg f) := by
  rw [waitFor, waitFor, mapMsg_tryCatch]
  congr
  funext e
  cases e <;> rfl

/-- A job's status messages come first, and what follows is the done stream of a
    job whose nodes have come to what the announced ones have. -/
theorem exec_jobCo (env : Env) (publisher : Option StatusPublisher) (waits : Waits) (jobId : String)
    (req : AgentRequest) (ds : List (Decision PyExn)) :
    ((jobCo env publisher waits jobId req).exec ds).sent =
      (((stagesCo env publisher waits jobId req).exec ds).sent).map .stage ++
        (((runJobCo jobId (Co.ofExcept ((stagesCo env publisher waits jobId req).exec ds).outcome)
          waits.after).exec ((stagesCo env publisher waits jobId req).exec ds).rest).sent).map
            .result := by
  -- what runs after the nodes only sees how they ended
  have hrest : ∀ out, (runJobCo jobId (Co.ofExcept out) waits.after).mapMsg (some ∘ JobEvent.result) =
      (waitFor ((Co.ofExcept out).bind fun p =>
        (publishDoneCo waits.after p).mapMsg (some ∘ JobEvent.result))).tryCatch fun e =>
          (onJobError jobId e).mapMsg (some ∘ JobEvent.result) := fun out => by
    rw [runJobCo, mapMsg_tryCatch, mapMsg_waitFor]
    cases out <;> rfl
  -- what was sent before does not matter to what runs after
  have hran : ∀ ran : Ran PyExn StatusMessage JobDonePayload,
      (⟨ran.sent.map JobEvent.stage, ran.outcome, ran.rest⟩ : Ran PyExn JobEvent JobDonePayload) =
        ((Co.ofExcept ran.outcome).exec ran.rest).after (ran.sent.map .stage) := fun ran => by
    rw [exec_ofExcept, Ran.after, List.append_nil]
  set ran := (stagesCo env publisher waits jobId req).exec ds
  have hsent := congrArg Ran.sent
    (exec_mapMsg_some JobEvent.result (runJobCo jobId (Co.ofExcept ran.outcome) waits.after) ran.rest)
  rw [hrest] at hsent
  dsimp only at hsent
  rw [← hsent, jobCo, waitFor, exec_tryCatch, exec_tryCatch, exec_bind, exec_mapMsg_some, hran,
    Ran.andThen_after, Ran.andThen_after, Ran.andThen_after, ← exec_bind, ← exec_tryCatch,
    ← exec_tryCatch]
  rfl

/-- A message on the done stream is what the nodes came to, or a failure of the
    job. -/
theorem mem_runJobCo {out : Except PyExn JobDonePayload} {writes : Nat} {ds : List (Decision PyExn)}
    {p : JobDonePayload} (hp : p ∈ ((runJobCo jobId (Co.ofExcept out) writes).exec ds).sent) :
    out = .ok p ∨ ∃ f, p = failedPayload jobId f := by
  obtain ⟨f, hsent⟩ := sent_runJobCo jobId (Co.ofExcept out) writes ds
  have hgraph := exec_ainvokeCo (Co.ofExcept out) writes ds
  rw [exec_ofExcept] at hgraph
  rw [hsent, List.mem_append] at hp
  rcases hp with hp | hp
  · -- the graph publishes its payload
    left
    cases out with
    | error e =>
      rw [hgraph.1] at hp
      exact nomatch hp
    | ok payload =>
      dsimp only at hgraph
      split at hgraph
      · rw [hgraph.1, List.mem_singleton] at hp
        rw [hp]
      · rw [hgraph.1] at hp
        exact nomatch hp
  · -- the handler only publishes failures
    right
    repeat' split at hp
    all_goals simp only [List.mem_singleton, List.not_mem_nil] at hp
    exact ⟨_, hp⟩

/-- A result on the done stream is what the nodes came to. -/
theorem done_of_mem {out : Except PyExn JobDonePayload} {writes : Nat} {ds : List (Decision PyExn)}
    {p : JobDonePayload} (hp : p ∈ ((runJobCo jobId (Co.ofExcept out) writes).exec ds).sent)
    (hdone : p.status = .done) : out = .ok p := by
  rcases mem_runJobCo hp with hout | ⟨f, rfl⟩
  · exact hout
  · exact nomatch hdone

/-- A state published as done has no failure. -/
theorem unfailed_of_done {s : AgentState} {p : JobDonePayload} (hp : donePayload s = .ok p)
    (hdone : p.status = .done) : s.failed = false := by
  cases hs : s.failed with
  | false => rfl
  | true =>
    rw [donePayload, if_pos hs] at hp
    cases hp
    cases hdone

/-- The results of a job that nothing strikes, as without a status stream. -/
theorem results_jobCo {publisher : Option StatusPublisher}
    (hpublisher : ∀ m, ∃ sent out, (callPublisher publisher m).exec [] = ⟨sent, out, []⟩ ∧
      ∀ e, out = .error e → e.isException = true) (env : Env) (waits : Waits) (jobId : String)
    (req : AgentRequest) :
    ((jobCo env publisher waits jobId req).exec []).sent =
      (((nodesFrom env recursionLimit .parseInput (Job.start jobId req)).flatMap fun n =>
        ((callPublisher publisher (announcement jobId n)).exec []).sent).map .stage) ++
          (runJob env jobId req).map .result := by
  rw [exec_jobCo, exec_stagesCo hpublisher, ← exec_comeTo env jobId req waits.after, comeTo_eq]

/-- The done stream of a job that nothing strikes. -/
theorem results_calm {publisher : Option StatusPublisher}
    (hpublisher : ∀ m, ∃ sent out, (callPublisher publisher m).exec [] = ⟨sent, out, []⟩ ∧
      ∀ e, out = .error e → e.isException = true) (env : Env) (waits : Waits) (jobId : String)
    (req : AgentRequest) :
    ((jobCo env publisher waits jobId req).exec []).sent.filterMap JobEvent.result? =
      runJob env jobId req := by
  have hnone : (JobEvent.result? ∘ JobEvent.stage) = fun _ => none := rfl
  have hsome : (JobEvent.result? ∘ JobEvent.result) = some := rfl
  rw [results_jobCo hpublisher, List.filterMap_append, List.filterMap_map, List.filterMap_map, hnone,
    hsome]
  simp

/-- Undisturbed, the publisher sends every status. -/
theorem publishStatus_served (m : StatusMessage) : ∃ sent out,
    (callPublisher (some publishStatus) m).exec [] = ⟨sent, out, []⟩ ∧
      ∀ e, out = .error e → e.isException = true :=
  ⟨[m], .ok (), rfl, fun _ h => nomatch h⟩

/-- The status stream of a job: the nodes of its line up to where it stops, then
    `build_payload` if and only if it comes to `publish_done`, and all of them if the
    result is one. Under any schedule it shows some of these, in this order and before
    all else; if nothing strikes it shows them all. -/
theorem announced_stages (env : Env) (waits : Waits) (jobId : String) (req : AgentRequest) :
    ∃ k closing, 1 ≤ k ∧ closing ∈ [[], [AgentNode.buildPayload]] ∧
      (closing = [.buildPayload] ↔ ∃ s, Comes env jobId req .publishDone s) ∧
      (∀ ds, ∃ (status : List StatusMessage) (results : List JobDonePayload),
        ((jobCo env (some publishStatus) waits jobId req).exec ds).sent =
          status.map .stage ++ results.map .result ∧
        status.Sublist
          (((AgentNode.line req.stage).take k ++ closing).map (announcement jobId)) ∧
        ((∃ p ∈ results, p.status = .done) →
          (AgentNode.line req.stage).length ≤ k ∧ closing = [.buildPayload])) ∧
      ((jobCo env (some publishStatus) waits jobId req).exec []).sent =
        (((AgentNode.line req.stage).take k ++ closing).map (announcement jobId)).map .stage ++
          (runJob env jobId req).map .result := by
  obtain ⟨hline, hfirst⟩ := line_eq_cons req.stage
  obtain ⟨k, hnodes, hall⟩ := path_line env (j := Job.start jobId req) hfirst
    (show _ < recursionLimit by decide)
  set closing := if (jobFrom env recursionLimit .parseInput (Job.start jobId req)).isOk
    then [AgentNode.buildPayload] else [] with hclosing
  have hshown : nodesFrom env recursionLimit .parseInput (Job.start jobId req) =
      (AgentNode.line req.stage).take (k + 1) ++ closing := by
    rw [hnodes, hline]
    rfl
  refine ⟨k + 1, closing, by omega, ?_, ?_, fun ds => ?_, ?_⟩
  · -- the line is closed by the payload node, or not at all
    rw [hclosing]
    split <;> simp
  · rw [← jobFrom_isOk_iff, hclosing]
    cases (jobFrom env recursionLimit .parseInput (Job.start jobId req)).isOk <;> simp
  · -- every schedule
    have hdrive := StateGraph.exec_driveCo (agentGraph env) (· == .publishDone)
      (.other "GraphRecursionError") (sent_aroundNode waits jobId) recursionLimit
      .parseInput (Job.start jobId req) ds
    refine ⟨_, _, exec_jobCo env (some publishStatus) waits jobId req ds, ?_, ?_⟩
    · rw [← hshown, stagesCo_eq, exec_bind, sent_andThen_quiet _ sent_raise]
      · exact hdrive.1
      · exact fun j ds' => by rw [exec_ofExcept]
    · rintro ⟨p, hp, hdone⟩
      -- a result is the payload of a job that has come to its last node unfailed
      have hout := done_of_mem hp hdone
      rw [stagesCo_eq] at hout
      obtain ⟨t, ht, hpayload⟩ := exec_bind_ok hout
      rw [exec_ofExcept] at hpayload
      have hjob : jobFrom env recursionLimit .parseInput (Job.start jobId req) = .ok t :=
        hdrive.2 t ht
      have hlength := hall t hjob (unfailed_of_done hpayload hdone)
      refine ⟨?_, ?_⟩
      · rw [hline]
        exact Nat.succ_le_succ hlength
      · rw [hclosing, if_pos]
        rw [hjob]
        rfl
  · -- the undisturbed one
    rw [results_jobCo, ← hshown]
    · rw [List.map_eq_flatMap (f := announcement jobId)]
      rfl
    · exact publishStatus_served

/-- Whatever becomes of its announcements, a job publishes the same result: with no
    publisher, or one that fails as any exception does, also after its message is
    out. -/
theorem status_best_effort (env : Env) (publisher : Option StatusPublisher) (waits : Waits)
    (jobId : String) (req : AgentRequest)
    (hpublisher : ∀ publish m, publisher = some publish → ∃ sent out,
      (publish m).exec [] = ⟨sent, out, []⟩ ∧ ∀ e, out = .error e → e.isException = true) :
    ((jobCo env publisher waits jobId req).exec []).sent.filterMap JobEvent.result? =
      runJob env jobId req := by
  refine results_calm (fun m => ?_) env waits jobId req
  cases publisher with
  | none => exact ⟨[], _, rfl, fun e h => by cases h; rfl⟩
  | some publish => exact hpublisher publish m rfl

/-- A publisher that loses its connection after each message. -/
theorem status_best_effort_unreachable :
    ((jobCo sampleEnv (some fun m => (Co.send m).bind fun _ => .raise (.other "ConnectionError"))
      ⟨fun _ => 1, 1⟩ "j" (sampleTrip .route)).exec []).sent.filterMap JobEvent.result? =
      runJob sampleEnv "j" (sampleTrip .route) :=
  status_best_effort _ _ _ _ _ fun publish m h => by
    cases h
    exact ⟨[m], _, rfl, fun e h => by cases h; rfl⟩

/-! ### Whose messages they are -/

/-- No node writes the job's identifier. -/
theorem runNode_jobId {n : AgentNode} {out : Except PyExn Unit} {j j' : Job}
    (h : runNode env n j = (out, j')) : j'.state.jobId = j.state.jobId := by
  -- a node keeps the id because its frame does
  have hstate : ∀ f, JobM.ofState f j = (out, j') →
      (∀ s s', f s = .ok s' → s'.jobId = s.jobId) → j'.state.jobId = j.state.jobId :=
    fun f hj hf => (ofState_keeps AgentState.jobId hf hj).1
  cases n with
  | parseInput => exact hstate _ h fun s s' hs => by rw [parseInput_frame hs]
  | fetchWeather => exact hstate _ h fun s s' hs => by rw [fetchWeather_frame hs]
  | planStrategy => exact hstate _ h fun s s' hs => by rw [planStrategy_frame hs]
  | loadGivenPlaces => exact hstate _ h fun s s' hs => by rw [loadGivenPlaces_frame hs]
  | searchPlaces => exact hstate _ h fun s s' hs => by rw [searchPlaces_frame hs]
  | rulesFilter => exact hstate _ h fun s s' hs => by rw [rulesFilter_frame hs]
  | scoreAndRank => exact hstate _ h fun s s' hs => by rw [scoreAndRank_frame hs]
  | recommendPlaces => rw [recommendPlaces_frame h]
  | recommendRoute => exact hstate _ h fun s s' hs => by rw [recommendRoute_frame hs]
  | buildTimeline => exact hstate _ h fun s s' hs => by rw [buildTimeline_frame hs]
  | fitTimeBudget => exact hstate _ h fun s s' hs => by rw [fitTimeBudget_frame hs]
  | llmReason => rw [llmReason_frame h]
  | buildPayload => exact hstate _ h fun s s' hs => by rw [buildPayload_frame hs]
  | publishDone => rw [publishDone_frame h]

/-- A payload carries the id of its state. -/
theorem donePayload_jobId {s : AgentState} {p : JobDonePayload} (h : donePayload s = .ok p) :
    p.jobId = s.jobId := by
  cases hs : s.failed with
  | true =>
    rw [donePayload, if_pos hs] at h
    cases h
    rfl
  | false =>
    rw [donePayload, if_neg (by rw [hs]; decide)] at h
    obtain ⟨places, -, h⟩ := bind_eq_ok.mp h
    obtain ⟨order, -, h⟩ := bind_eq_ok.mp h
    obtain ⟨legs, -, h⟩ := bind_eq_ok.mp h
    cases h
    rfl

/-- A job only sends messages of its own, whatever strikes. -/
theorem jobId_of_mem (env : Env) (waits : Waits) (jobId : String) (req : AgentRequest)
    (ds : List (Decision PyExn)) {x : JobEvent}
    (hx : x ∈ ((jobCo env (some publishStatus) waits jobId req).exec ds).sent) :
    x.jobId = jobId := by
  have hdrive := StateGraph.exec_driveCo (agentGraph env) (· == .publishDone)
    (.other "GraphRecursionError") (sent_aroundNode waits jobId) recursionLimit
    .parseInput (Job.start jobId req) ds
  rw [exec_jobCo, List.mem_append, List.mem_map, List.mem_map] at hx
  rcases hx with ⟨m, hm, rfl⟩ | ⟨p, hp, rfl⟩
  · rw [stagesCo_eq, exec_bind, sent_andThen_quiet _ sent_raise] at hm
    · -- a status message
      obtain ⟨n, -, rfl⟩ := List.mem_map.mp (hdrive.1.subset hm)
      rfl
    · exact fun j ds' => by rw [exec_ofExcept]
  · -- a result, that of the graph or a failure
    rcases mem_runJobCo hp with hout | ⟨f, rfl⟩
    · rw [stagesCo_eq] at hout
      obtain ⟨t, ht, hpayload⟩ := exec_bind_ok hout
      rw [exec_ofExcept] at hpayload
      have hself : t.state.jobId = jobId :=
        StateGraph.runTo_preserves (fun j => j.state.jobId = jobId)
          (fun n j hj => (runNode_jobId rfl).trans hj) rfl (hdrive.2 t ht)
      exact (donePayload_jobId hpayload).trans hself
    · rfl

end MapServiceAgent.Native

import MapServiceAgent.Native.Service
import MapServiceAgent.Spec.GateCorrect
import MapServiceAgent.Spec.StagesCorrect

/-!
# What the service keeps

However requests, jobs, timers and the end of the service interleave, each job
sends what it would alone, and none that is still running is lost sight of.

## Key results

- `steps_of_step`: what an event does
- `served_run`: what every run of the service keeps
- `job_alone`: jobs do not disturb each other
- `job_results`: the results of a job, in any run of the service
- `shutdown_waits`: the end of the service waits for every job
-/

namespace MapServiceAgent.Native

open Co

variable {settings : ServiceSettings} {s s' : Service} {es : List ServiceEvent}

/-! ### Events -/

/-- What the events of a service do. -/
inductive Service.Steps (settings : ServiceSettings) (s : Service) : ServiceEvent → Service → Prop
  | boot : bootGate settings = .ok () → Steps settings s .boot { s with graphReady := true }
  | refused (call : RecommendCall) : Steps settings s (.recommend call) s
  | admitted {call : RecommendCall} {req : RecommendRequest}
      {pool : Pool String PyExn JobEvent Unit} :
      s.pending = none → s.graphReady = true → call.gated settings = .ok req →
      s.pool.step (.spawn call.jobId (call.job req)) = some pool →
      Steps settings s (.recommend call)
        { s with pool := pool, bgTasks := s.bgTasks ++ [call.jobId] }
  | drive {jobId : String} {d : Decision PyExn} {pool : Pool String PyExn JobEvent Unit} :
      s.mayThrow jobId d = true → s.pool.step (.drive jobId d) = some pool →
      Steps settings s (.drive jobId d) { s with pool := pool }
  | discard {jobId : String} : s.done jobId = true →
      Steps settings s (.discard jobId) { s with bgTasks := s.bgTasks.filter (· ≠ jobId) }
  | shutdown : s.pending = none → Steps settings s .shutdown { s with pending := some s.bgTasks }
  | graceExceeded : Steps settings s .graceExceeded { s with graceOver := true }

/-- A step of the service is one of those listed. -/
theorem steps_of_step {e : ServiceEvent} (h : s.step settings e = some s') :
    s.Steps settings e s' := by
  cases e with
  | boot =>
    simp only [Service.step] at h
    split at h
    · rename_i hgate
      simp only [Option.ite_none_left_eq_some, Option.some.injEq] at h
      rw [← h.2]
      exact .boot hgate
    · cases h
  | recommend call =>
    simp only [Service.step, Option.ite_none_left_eq_some] at h
    obtain ⟨hopen, h⟩ := h
    split at h
    · cases h
      -- the request was refused at the gate
      exact .refused call
    · rename_i req hgated
      split at h
      · cases h
        -- the graph was not ready
        exact .refused call
      · -- a job was spawned
        rename_i hready
        simp only [Option.bind_eq_bind, Option.bind_eq_some_iff] at h
        obtain ⟨pool, hpool, h⟩ := h
        cases h
        exact .admitted (by simpa using hopen) (by simpa using hready) hgated hpool
  | drive jobId d =>
    simp only [Service.step, Option.ite_none_right_eq_some, Option.bind_eq_bind,
      Option.bind_eq_some_iff] at h
    obtain ⟨hmay, pool, hpool, h⟩ := h
    cases h
    exact .drive hmay hpool
  | discard jobId =>
    simp only [Service.step, Option.ite_none_right_eq_some, Option.some.injEq] at h
    rw [← h.2]
    exact .discard h.1
  | shutdown =>
    simp only [Service.step, Option.ite_none_right_eq_some, Option.some.injEq, Bool.and_eq_true,
      Option.isNone_iff_eq_none] at h
    rw [← h.2]
    exact .shutdown h.1.2
  | graceExceeded =>
    simp only [Service.step] at h
    split at h
    · simp only [Option.ite_none_left_eq_some, Option.some.injEq] at h
      rw [← h.2]
      exact .graceExceeded
    · cases h

/-! ### What every run keeps -/

/-- Some call of the run was let through, and its job started. -/
def Admitted (settings : ServiceSettings) (es : List ServiceEvent) (jobId : String)
    (m : Co PyExn JobEvent Unit) : Prop :=
  ∃ call req, .recommend call ∈ es ∧ call.jobId = jobId ∧ call.gated settings = .ok req ∧
    m = call.job req

/-- What holds of a service after the events `es`. -/
structure Served (settings : ServiceSettings) (es : List ServiceEvent) (s : Service) : Prop where
  booted : s.graphReady = true → bootGate settings = .ok ()
  started : ∀ jobId m, s.pool.tasks jobId = some m → s.graphReady = true
  /-- The tasks are a pool that the admitted calls have started. -/
  explained : ∃ pes, Pool.run {} pes = some s.pool ∧
    (∀ jobId m, .spawn jobId m ∈ pes → Admitted settings es jobId m) ∧
    ∀ jobId, Pool.decisions jobId pes = jobDecisions jobId es
  /-- A task that is not done is tracked. -/
  tracked : ∀ jobId m, s.pool.tasks jobId = some m → s.done jobId = false → jobId ∈ s.bgTasks
  /-- The end waits for every task that is not done. -/
  waited : ∀ pending, s.pending = some pending → ∀ jobId m, s.pool.tasks jobId = some m →
    s.done jobId = false → jobId ∈ pending

/-- Nothing was served before the first event. -/
theorem served_start (settings : ServiceSettings) : Served settings [] {} where
  booted h := nomatch h
  started _ _ h := nomatch h
  explained := ⟨[], rfl, fun _ _ h => (List.not_mem_nil h).elim, fun _ => rfl⟩
  tracked _ _ h := nomatch h
  waited _ h := nomatch h

/-- What was admitted stays admitted. -/
theorem Admitted.mono {es' : List ServiceEvent} {jobId : String} {m : Co PyExn JobEvent Unit}
    (h : Admitted settings es jobId m) : Admitted settings (es ++ es') jobId m := by
  obtain ⟨call, req, hmem, hrest⟩ := h
  exact ⟨call, req, List.mem_append_left _ hmem, hrest⟩

/-- Events that leave the tasks alone leave them explained. -/
theorem Served.explained_same (h : Served settings es s) {e : ServiceEvent}
    (he : ∀ jobId d, e ≠ .drive jobId d) : ∃ pes, Pool.run {} pes = some s.pool ∧
      (∀ jobId m, .spawn jobId m ∈ pes → Admitted settings (es ++ [e]) jobId m) ∧
      ∀ jobId, Pool.decisions jobId pes = jobDecisions jobId (es ++ [e]) := by
  obtain ⟨pes, hrun, hspawn, hdec⟩ := h.explained
  refine ⟨pes, hrun, fun jobId m hm => (hspawn jobId m hm).mono, fun jobId => ?_⟩
  rw [hdec, jobDecisions, jobDecisions, List.filterMap_append]
  cases e with
  | drive jobId d => exact absurd rfl (he jobId d)
  | _ => simp

/-- Starting a task changes no other one. -/
theorem tasks_of_spawn {pool pool' : Pool String PyExn JobEvent Unit} {jobId : String}
    {m : Co PyExn JobEvent Unit} (h : pool.step (.spawn jobId m) = some pool') :
    pool'.tasks = Function.update pool.tasks jobId (some m) := by
  simp only [Pool.step, Option.ite_none_right_eq_some, Option.some.injEq] at h
  rw [← h.2]

/-- Only a task that is not done is driven, and it changes no other one. -/
theorem tasks_of_drive {pool pool' : Pool String PyExn JobEvent Unit} {jobId : String}
    {d : Decision PyExn} (h : pool.step (.drive jobId d) = some pool') :
    ∃ now next, pool.tasks jobId = some now ∧ now.ended = none ∧
      pool'.tasks = Function.update pool.tasks jobId (some next) := by
  simp only [Pool.step, Option.bind_eq_bind, Option.bind_eq_some_iff] at h
  obtain ⟨now, hnow, ⟨sent, next⟩, hstep, h⟩ := h
  cases h
  exact ⟨now, next, hnow, ended_of_step hstep, rfl⟩

/-- What the service holds of a task depends on that task only. -/
theorem done_congr (s s' : Service) {jobId : String} (h : s'.pool.tasks jobId = s.pool.tasks jobId) :
    s'.done jobId = s.done jobId := by
  rw [Service.done, Service.done, h]

/-- Starting a job keeps all of them tracked. -/
theorem Served.admitted (h : Served settings es s) {call : RecommendCall} {req : RecommendRequest}
    {pool : Pool String PyExn JobEvent Unit} (hopen : s.pending = none)
    (hready : s.graphReady = true) (hgated : call.gated settings = .ok req)
    (hpool : s.pool.step (.spawn call.jobId (call.job req)) = some pool) :
    Served settings (es ++ [.recommend call])
      { s with pool := pool, bgTasks := s.bgTasks ++ [call.jobId] } where
  booted := h.booted
  started _ _ _ := hready
  explained := by
    obtain ⟨pes, hrun, hspawn, hdec⟩ := h.explained
    refine ⟨pes ++ [.spawn call.jobId (call.job req)], Pool.run_snoc hrun hpool, ?_, fun jobId => ?_⟩
    · intro jobId m hm
      rcases List.mem_append.mp hm with hm | hm
      · exact (hspawn jobId m hm).mono
      · cases List.mem_singleton.mp hm
        exact ⟨call, req, by simp, rfl, hgated, rfl⟩
    · -- spawning strikes nothing
      rw [Pool.decisions_append, Pool.decisions_spawn, hdec, jobDecisions, jobDecisions,
        List.filterMap_append]
      simp
  tracked jobId m hm hdone := by
    by_cases hself : jobId = call.jobId
    · -- the new task is tracked from the start
      rw [hself]
      exact List.mem_append_right _ (List.mem_singleton_self _)
    · have htask : pool.tasks jobId = s.pool.tasks jobId := by
        rw [tasks_of_spawn hpool, Function.update_of_ne hself]
      rw [done_congr s _ htask] at hdone
      exact List.mem_append_left _ (h.tracked jobId m (htask ▸ hm) hdone)
  waited pending hpending := by
    rw [hopen] at hpending
    exact nomatch hpending

/-- Driving a job keeps all of them tracked. -/
theorem Served.drive (h : Served settings es s) {jobId : String} {d : Decision PyExn}
    {pool : Pool String PyExn JobEvent Unit} (hpool : s.pool.step (.drive jobId d) = some pool) :
    Served settings (es ++ [.drive jobId d]) { s with pool := pool } := by
  obtain ⟨now, next, hnow, hended, htasks⟩ := tasks_of_drive hpool
  -- a task that is not done was not done before
  have hback : ∀ i m, pool.tasks i = some m → Service.done { s with pool := pool } i = false →
      ∃ m, s.pool.tasks i = some m ∧ s.done i = false := by
    intro i m hm hdone
    by_cases hself : i = jobId
    · rw [hself]
      exact ⟨now, hnow, by rw [Service.done, hnow, Option.bind_some, hended]; rfl⟩
    · have htask : pool.tasks i = s.pool.tasks i := by
        rw [htasks, Function.update_of_ne hself]
      rw [done_congr s _ htask] at hdone
      exact ⟨m, htask ▸ hm, hdone⟩
  refine ⟨h.booted, fun _ _ _ => h.started jobId now hnow, ?_, ?_, ?_⟩
  · -- driving a task is a decision about its job
    obtain ⟨pes, hrun, hspawn, hdec⟩ := h.explained
    refine ⟨pes ++ [.drive jobId d], Pool.run_snoc hrun hpool, ?_, fun i => ?_⟩
    · intro i m hm
      rcases List.mem_append.mp hm with hm | hm
      · exact (hspawn i m hm).mono
      · exact nomatch List.mem_singleton.mp hm
    · rw [Pool.decisions_append, hdec, jobDecisions, jobDecisions, List.filterMap_append]
      congr 1
  · intro i m hm hdone
    obtain ⟨m', hm', hdone'⟩ := hback i m hm hdone
    exact h.tracked i m' hm' hdone'
  · intro pending hpending i m hm hdone
    obtain ⟨m', hm', hdone'⟩ := hback i m hm hdone
    exact h.waited pending hpending i m' hm' hdone'

/-- Whatever happens next, the service has served its requests. -/
theorem Served.step {e : ServiceEvent} (h : Served settings es s)
    (hstep : s.step settings e = some s') : Served settings (es ++ [e]) s' := by
  cases steps_of_step hstep with
  | boot hgate =>
    exact ⟨fun _ => hgate, fun _ _ _ => rfl, h.explained_same (by simp), h.tracked, h.waited⟩
  | refused call =>
    exact ⟨h.booted, h.started, h.explained_same (by simp), h.tracked, h.waited⟩
  | admitted hopen hready hgated hpool => exact h.admitted hopen hready hgated hpool
  | drive _ hpool => exact h.drive hpool
  | discard hdone =>
    refine ⟨h.booted, h.started, h.explained_same (by simp), fun i m hm hi => ?_, h.waited⟩
    -- only a task that is done is discarded
    refine List.mem_filter.mpr ⟨h.tracked i m hm hi, decide_eq_true ?_⟩
    rintro rfl
    exact absurd (hdone.symm.trans hi) (by decide)
  | shutdown _ =>
    refine ⟨h.booted, h.started, h.explained_same (by simp), h.tracked, ?_⟩
    -- the shutdown waits for the tasks tracked then
    rintro pending hpending i m hm hi
    cases hpending
    exact h.tracked i m hm hi
  | graceExceeded =>
    exact ⟨h.booted, h.started, h.explained_same (by simp), h.tracked, h.waited⟩

/-- So it has after a run of events. -/
theorem served_run_from {es' : List ServiceEvent} (h : Served settings es s)
    (hrun : s.run settings es' = some s') : Served settings (es ++ es') s' := by
  induction es' generalizing es s with
  | nil =>
    cases hrun
    rwa [List.append_nil]
  | cons e es' ih =>
    simp only [Service.run, Option.bind_eq_bind, Option.bind_eq_some_iff] at hrun
    obtain ⟨s₁, hstep, hrun⟩ := hrun
    have := ih (h.step hstep) hrun
    rwa [List.append_assoc] at this

/-- What holds of every run of the service. -/
theorem served_run (hrun : Service.run settings {} es = some s) : Served settings es s :=
  served_run_from (served_start settings) hrun

/-! ### Jobs by themselves -/

/-- Where a task is: where the decisions on it have brought the job of an admitted
    call. -/
theorem Served.task (h : Served settings es s) {jobId : String} {m : Co PyExn JobEvent Unit}
    (hm : s.pool.tasks jobId = some m) :
    ∃ call req, .recommend call ∈ es ∧ call.jobId = jobId ∧ call.gated settings = .ok req ∧
      (call.job req).steps (jobDecisions jobId es) = some (s.pool.sentBy jobId, m) := by
  obtain ⟨pes, hrun, hspawn, hdec⟩ := h.explained
  have hexplains := Pool.explains_run hrun jobId
  rw [Pool.Explains, hm, hdec] at hexplains
  obtain ⟨m₀, hm₀, hsteps⟩ := hexplains
  obtain ⟨call, req, hmem, hid, hgated, rfl⟩ := hspawn jobId m₀ hm₀
  exact ⟨call, req, hmem, hid, hgated, hsteps⟩

/-- What was sent under a name without a task: nothing. -/
theorem Served.sent_none (h : Served settings es s) {jobId : String}
    (hm : s.pool.tasks jobId = none) : s.pool.sentBy jobId = [] := by
  obtain ⟨pes, hrun, -, -⟩ := h.explained
  have hexplains := Pool.explains_run hrun jobId
  rw [Pool.Explains, hm] at hexplains
  exact hexplains.1

/-- With the token enforced, a call that is let through has brought it. -/
theorem token_of_gated {call : RecommendCall} {req : RecommendRequest}
    (hboot : bootGate settings = .ok ()) (henforced : settings.authEnforced = true)
    (hgated : call.gated settings = .ok req) :
    ∃ token, token ≠ "" ∧ settings.internalToken = some token ∧ call.token = some token := by
  -- the service would not have booted without a token
  have hset : settings.internalToken.getD "" ≠ "" := by
    intro hnone
    simp only [bootGate, henforced, hnone] at hboot
    split at hboot <;> cases hboot
  obtain ⟨u, htoken, -⟩ := bind_eq_ok.mp hgated
  cases hinternal : settings.internalToken with
  | none =>
    rw [hinternal] at hset
    exact absurd rfl hset
  | some token =>
    rw [hinternal, Option.getD_some] at hset
    refine ⟨token, hset, rfl, ?_⟩
    simp only [verifyInternalToken, hinternal, Option.getD_some, if_neg hset] at htoken
    split at htoken
    · assumption
    · cases htoken

/-- However the service runs, every entry of its streams was sent by the job it
    names, which was let in by the gates, and what a job has sent is what it sends
    alone under the decisions made on it. -/
theorem job_alone (hrun : Service.run settings {} es = some s) :
    ∀ jobId x, (jobId, x) ∈ s.pool.log → x.jobId = jobId ∧
      ∃ call req, .recommend call ∈ es ∧ call.jobId = jobId ∧ call.gated settings = .ok req ∧
        s.pool.sentBy jobId <+: ((call.job req).exec (jobDecisions jobId es)).sent ∧
        (settings.authEnforced = true →
          ∃ token, token ≠ "" ∧ settings.internalToken = some token ∧ call.token = some token) := by
  intro jobId x hx
  have h := served_run hrun
  have hsent : x ∈ s.pool.sentBy jobId :=
    List.mem_map.mpr ⟨(jobId, x), List.mem_filter.mpr ⟨hx, decide_eq_true rfl⟩, rfl⟩
  cases hm : s.pool.tasks jobId with
  | none =>
    -- without a task the job has sent nothing
    rw [h.sent_none hm] at hsent
    exact nomatch hsent
  | some m =>
    obtain ⟨call, req, hmem, rfl, hgated, hsteps⟩ := h.task hm
    have hsends := sent_prefix_of_steps hsteps
    exact ⟨jobId_of_mem _ _ _ _ _ (hsends.subset hsent), call, req, hmem, rfl, hgated, hsends,
      fun henforced => token_of_gated (h.booted (h.started _ _ hm)) henforced hgated⟩

/-- A request may come without an envelope. -/
theorem unsealed_valid : (none : Option String).all (lengthIn 0 8192) = true := rfl

/-- A job whose timer runs out as it begins. -/
def sampleCall : RecommendCall where
  token := none
  request := sampleGated none unsealed_valid
  wire := sampleWire
  jobId := "j"
  env := sampleEnv
  waits := ⟨fun _ => 0, 0⟩

/-- A service that asks for no token. -/
def sampleService : ServiceSettings := ⟨"key", none, false, ""⟩

/-- A job is struck by the timer and then tells its failure. -/
def sampleEvents : List ServiceEvent :=
  [.boot, .recommend sampleCall, .drive "j" (.strike true .timerCancelled), .drive "j" .resume]

/-- The sample job comes to its end. -/
theorem sampleEvents_run : ∃ s m out, Service.run sampleService {} sampleEvents = some s ∧
    s.pool.tasks "j" = some m ∧ m.ended = some out :=
  ⟨_, _, _, rfl, rfl, rfl⟩

/-- What the sample job has sent is about itself. -/
theorem job_alone_timeout :
    ∃ s, Service.run sampleService {} sampleEvents = some s ∧
      ∀ jobId x, (jobId, x) ∈ s.pool.log → x.jobId = jobId := by
  obtain ⟨s, m, out, hs, -, -⟩ := sampleEvents_run
  exact ⟨s, hs, fun jobId x hx => (job_alone hs jobId x hx).1⟩

/-! ### Results -/

/-- What a job has come to when its nodes have, as far as the done stream goes. -/
abbrev RecommendCall.nodes (call : RecommendCall) (req : RecommendRequest) :
    Co PyExn Empty JobDonePayload :=
  (stagesCo call.env (some publishStatus) call.waits call.jobId req.toAgentRequest).mapMsg
    fun _ => none

/-- The results a job sends under a schedule. -/
theorem results_job (call : RecommendCall) (req : RecommendRequest) (ds : List (Decision PyExn)) :
    ((call.job req).exec ds).sent.filterMap JobEvent.result? =
      ((runJobCo call.jobId (Co.ofExcept ((call.nodes req).exec ds).outcome)
        call.waits.after).exec ((call.nodes req).exec ds).rest).sent := by
  have hnone : (JobEvent.result? ∘ JobEvent.stage) = fun _ => none := rfl
  have hsome : (JobEvent.result? ∘ JobEvent.result) = some := rfl
  rw [RecommendCall.job, exec_jobCo, List.filterMap_append, List.filterMap_map, List.filterMap_map,
    hnone, hsome, RecommendCall.nodes, exec_mapMsg]
  simp

/-- What an ended job has left on the done stream, in any run of the service: at
    most one message unless an exception strikes after the result and the handler's
    own write is served, at least one unless every write it makes is struck before it
    is served, and if nothing strikes, what the request comes to. -/
theorem job_results (hrun : Service.run settings {} es = some s) {jobId : String}
    {m : Co PyExn JobEvent Unit} {out : Except PyExn Unit} (hm : s.pool.tasks jobId = some m)
    (hended : m.ended = some out) :
    ∃ call req, .recommend call ∈ es ∧ call.jobId = jobId ∧ call.gated settings = .ok req ∧
      (OneTerminal ((s.pool.sentBy jobId).filterMap JobEvent.result?) ↔
        ∀ rest, lateStrike (call.nodes req) call.waits.after (jobDecisions jobId es) = some rest →
          servedNext rest = false) ∧
      ((s.pool.sentBy jobId).filterMap JobEvent.result? = [] ↔
        unserved (call.nodes req) (jobDecisions jobId es) = true) ∧
      ((∀ d ∈ jobDecisions jobId es, d = .resume) →
        (s.pool.sentBy jobId).filterMap JobEvent.result? =
          runJob call.env jobId req.toAgentRequest) := by
  obtain ⟨call, req, hmem, rfl, hgated, hsteps⟩ := (served_run hrun).task hm
  refine ⟨call, req, hmem, rfl, hgated, ?_⟩
  set ds := jobDecisions call.jobId es
  have hexec : (call.job req).exec ds = ⟨s.pool.sentBy call.jobId, out, []⟩ :=
    exec_of_steps_ended hsteps hended
  have hresults := results_job call req ds
  rw [hexec] at hresults
  refine ⟨?_, ?_, fun h => ?_⟩
  · -- at most one result
    rw [hresults, oneTerminal_iff]
    simp only [lateStrike, exec_ofExcept]
  · -- at least one
    rw [hresults, sent_eq_nil_iff]
    simp only [unserved, exec_ofExcept]
  · -- exactly that of the graph, where nothing was struck
    have hcalm := (exec_resumed (call.job req) h).1
    rw [hexec] at hcalm
    dsimp only at hcalm
    rw [hcalm]
    exact results_calm publishStatus_served _ _ _ _

/-- The job whose timer runs out as it begins leaves the message of that. -/
theorem job_results_timeout :
    ∃ s, Service.run sampleService {} sampleEvents = some s ∧
      (s.pool.sentBy "j").filterMap JobEvent.result? ≠ [] := by
  obtain ⟨s, m, out, hs, hm, hended⟩ := sampleEvents_run
  obtain ⟨call, req, hcall, -, -, -, hnone, -⟩ := job_results hs hm hended
  obtain rfl : call = sampleCall := by simpa [sampleEvents] using hcall
  -- the strike ends the nodes at their first await, and the handler's write is served
  have hserved : unserved (sampleCall.nodes req) (jobDecisions "j" sampleEvents) = false := rfl
  refine ⟨s, hs, fun hempty => ?_⟩
  rw [hnone.mp hempty] at hserved
  cases hserved

/-! ### The end -/

/-- Every job still running is tracked; and when the tasks the end waits for are
    done, so is every job the service has started. -/
theorem shutdown_waits (hrun : Service.run settings {} es = some s) :
    (∀ jobId m, s.pool.tasks jobId = some m → s.done jobId = false → jobId ∈ s.bgTasks) ∧
      ∀ pending, s.pending = some pending → (∀ jobId ∈ pending, s.done jobId = true) →
        ∀ jobId m, s.pool.tasks jobId = some m → s.done jobId = true := by
  have h := served_run hrun
  refine ⟨h.tracked, fun pending hpending hall jobId m hm => ?_⟩
  cases hdone : s.done jobId with
  | true => rfl
  | false => exact (hdone.symm.trans (hall jobId (h.waited pending hpending jobId m hm hdone)))

/-- The service ends while a job has not begun. -/
theorem shutdown_waits_sample :
    ∃ s, Service.run sampleService {} [.boot, .recommend sampleCall, .shutdown] = some s ∧
      "j" ∈ s.bgTasks := by
  have hrun : ∃ s m, Service.run sampleService {} [.boot, .recommend sampleCall, .shutdown] = some s ∧
      s.pool.tasks "j" = some m ∧ s.done "j" = false :=
    ⟨_, _, rfl, rfl, rfl⟩
  obtain ⟨s, m, hs, hm, hdone⟩ := hrun
  exact ⟨s, hs, (shutdown_waits hs).1 "j" m hm hdone⟩

end MapServiceAgent.Native

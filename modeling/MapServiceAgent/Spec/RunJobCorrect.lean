import MapServiceAgent.Spec.AgentGraphCorrect

/-!
# Messages of one job

How many messages a job leaves on the done stream, under every schedule of
timeouts, cancellations and failing writes.

## Key results

- `sent_runJobCo`: the messages of a job in terms of its schedule
- `oneTerminal_iff`: at most one message, unless something strikes late
- `sent_eq_nil_iff`: at least one, unless all its writes are struck
- `exec_comeTo`: undisturbed, a job leaves the messages of its run
-/

namespace MapServiceAgent.Native

open Co

/-- Whether the next await of a schedule gets its message onto the stream. -/
def servedNext : List (Decision PyExn) → Bool
  | .strike served _ :: _ => served
  | _ => true

/-- What an exception strikes after the result was appended: the schedule left
    for the handler then. The nodes themselves must have come to a payload. -/
def lateStrike (nodes : Co PyExn Empty JobDonePayload) (writes : Nat)
    (schedule : List (Decision PyExn)) : Option (List (Decision PyExn)) :=
  match (nodes.exec schedule).outcome, (nodes.exec schedule).rest with
  | .error _, _ => none
  -- at the `XADD` itself, once the entry is appended
  | .ok _, .strike served _ :: rest => if served then some rest else none
  -- at one of the writes after it
  | .ok _, .resume :: rest => (strikeWithin writes rest).map (·.2)
  | .ok _, [] => none

/-- Whether every write a job makes is struck before it is served: that of its result,
    if the nodes have come to a payload, and that of the failure reported then. -/
def unserved (nodes : Co PyExn Empty JobDonePayload) (schedule : List (Decision PyExn)) : Bool :=
  match (nodes.exec schedule).outcome with
  | .error _ => !servedNext (nodes.exec schedule).rest
  | .ok _ => !servedNext (nodes.exec schedule).rest && !servedNext (nodes.exec schedule).rest.tail

/-- At most one terminal message, and none that reports a failure after a
    result. -/
structure OneTerminal (sent : List JobDonePayload) : Prop where
  at_most_one : sent.length ≤ 1
  no_failed_after_done : ∀ a b, [a, b].Sublist sent → ¬ (a.status = .done ∧ b.status = .failed)

/-- A job has one terminal message when it has sent one at most. -/
theorem oneTerminal_iff_length {sent : List JobDonePayload} :
    OneTerminal sent ↔ sent.length ≤ 1 := by
  refine ⟨fun h => h.at_most_one, fun h => ⟨h, fun a b hab => ?_⟩⟩
  have := hab.length_le
  simp only [List.length_cons, List.length_nil] at this
  omega

/-! ### The handlers -/

/-- The failure handler appends its message unless it is struck before that. -/
theorem exec_onJobError (jobId : String) (e : PyExn) (schedule : List (Decision PyExn)) :
    ((onJobError jobId e).exec schedule).sent =
      if servedNext schedule then [failedPayload jobId (jobFailure e)] else [] := by
  simp only [onJobError, publishFailure, exec_bind, exec_tryCatch, Ran.andThen]
  cases schedule with
  | nil => cases h : e.isException <;> simp [send, exec, Ran.after, servedNext]
  | cons d ds =>
    cases d with
    | resume => cases h : e.isException <;> simp [send, exec, Ran.after, servedNext]
    | strike served x =>
      cases served <;> cases hx : x.isException <;> cases h : e.isException <;>
        simp [send, exec, Ran.after, servedNext, hx]

/-- `wait_for` renames an exception and sends nothing. -/
theorem exec_waitFor (m : Co PyExn JobDonePayload Unit) (schedule : List (Decision PyExn)) :
    ∃ f : PyExn → PyExn, (waitFor m).exec schedule =
      { m.exec schedule with outcome := (m.exec schedule).outcome.mapError f } := by
  simp only [waitFor, exec_tryCatch, Ran.andThen]
  cases h : (m.exec schedule).outcome with
  | ok a => exact ⟨id, by simp [exec, Ran.after, Except.mapError]⟩
  | error e =>
    -- only the timer's own cancellation gets another name
    cases e with
    | timerCancelled => exact ⟨fun _ => .timeoutError, by simp [exec, Ran.after, Except.mapError]⟩
    | _ => exact ⟨id, by simp [exec, Ran.after, Except.mapError]⟩

/-- The messages of a job: those of the graph, and the handler's if the graph
    was struck. -/
theorem sent_runJobCo (jobId : String) (nodes : Co PyExn Empty JobDonePayload) (writes : Nat)
    (schedule : List (Decision PyExn)) :
    ∃ f : PyExn → PyExn, ((runJobCo jobId nodes writes).exec schedule).sent =
      ((ainvokeCo nodes writes).exec schedule).sent ++
        match ((ainvokeCo nodes writes).exec schedule).outcome with
        | .ok () => []
        | .error e =>
          if servedNext ((ainvokeCo nodes writes).exec schedule).rest
          then [failedPayload jobId (jobFailure (f e))] else [] := by
  -- a timer may rename what the graph raised
  obtain ⟨f, hwait⟩ := exec_waitFor (ainvokeCo nodes writes) schedule
  refine ⟨f, ?_⟩
  simp only [runJobCo, exec_tryCatch, Ran.andThen, hwait]
  cases h : ((ainvokeCo nodes writes).exec schedule).outcome with
  | ok a => simp [Except.mapError, exec, Ran.after]
  | error e => simp [Except.mapError, Ran.after, exec_onJobError]

/-! ### The graph -/

/-- The graph under a schedule: it appends the result when the nodes came to
    one and the `XADD` was served, and is struck late or not. -/
theorem exec_ainvokeCo (nodes : Co PyExn Empty JobDonePayload) (writes : Nat)
    (schedule : List (Decision PyExn)) :
    match (nodes.exec schedule).outcome with
    | .error e => ((ainvokeCo nodes writes).exec schedule).sent = [] ∧
        ((ainvokeCo nodes writes).exec schedule).outcome = .error e ∧
        ((ainvokeCo nodes writes).exec schedule).rest = (nodes.exec schedule).rest
    | .ok payload =>
      if servedNext (nodes.exec schedule).rest then
        ((ainvokeCo nodes writes).exec schedule).sent = [payload] ∧
          match lateStrike nodes writes schedule with
          | some rest => (∃ e, ((ainvokeCo nodes writes).exec schedule).outcome = .error e) ∧
              ((ainvokeCo nodes writes).exec schedule).rest = rest
          | none => ((ainvokeCo nodes writes).exec schedule).outcome = .ok ()
      else ((ainvokeCo nodes writes).exec schedule).sent = [] ∧
        (∃ e, ((ainvokeCo nodes writes).exec schedule).outcome = .error e) ∧
        ((ainvokeCo nodes writes).exec schedule).rest = (nodes.exec schedule).rest.tail := by
  simp only [ainvokeCo, publishDoneCo, lateStrike, exec_bind, exec_lift, Ran.andThen]
  cases hout : (nodes.exec schedule).outcome with
  -- the nodes raised, and nothing was written
  | error e => simp [exec, Ran.after]
  | ok payload =>
    have hstruck : strikeWithin writes ([] : List (Decision PyExn)) = none := by
      cases writes <;> rfl
    -- the write of the message is the next await, if the schedule has one
    cases hrest : (nodes.exec schedule).rest with
    | nil => simp [send, exec, exec_awaits, Ran.after, servedNext, hstruck]
    | cons d ds =>
      cases d with
      -- the write went through; the awaits after it may still be struck
      | resume =>
        cases hs : strikeWithin writes ds <;>
          simp [send, exec, exec_awaits, Ran.after, servedNext, hs]
      -- struck at the write, before it was served or after
      | strike served e => cases served <;> simp [send, exec, Ran.after, servedNext]

/-! ### At most one message -/

/-- A job leaves at most one message exactly when no exception that strikes
    after the result was appended finds the handler's own `XADD` served. -/
theorem oneTerminal_iff (jobId : String) (nodes : Co PyExn Empty JobDonePayload) (writes : Nat)
    (schedule : List (Decision PyExn)) :
    OneTerminal ((runJobCo jobId nodes writes).exec schedule).sent ↔
      ∀ rest, lateStrike nodes writes schedule = some rest → servedNext rest = false := by
  obtain ⟨f, hsent⟩ := sent_runJobCo jobId nodes writes schedule
  have hgraph := exec_ainvokeCo nodes writes schedule
  rw [oneTerminal_iff_length, hsent]
  cases hout : (nodes.exec schedule).outcome with
  | error e =>
    simp only [hout] at hgraph
    -- the graph sent nothing, so only the failure can be sent
    have hlate : lateStrike nodes writes schedule = none := by simp [lateStrike, hout]
    rw [hgraph.1, hgraph.2.1, hlate]
    simp only [List.nil_append, reduceCtorEq, false_implies, implies_true, iff_true]
    split <;> simp
  | ok payload =>
    simp only [hout] at hgraph
    by_cases hserved : servedNext (nodes.exec schedule).rest = true
    · rw [if_pos hserved] at hgraph
      -- the message went out
      cases hlate : lateStrike nodes writes schedule with
      | none =>
        simp only [hlate] at hgraph
        simp [hgraph.1, hgraph.2]
      | some rest =>
        simp only [hlate] at hgraph
        -- struck after the message went out: a second one follows if it is served
        obtain ⟨hone, ⟨e, he⟩, hrest⟩ := hgraph
        cases hnext : servedNext rest <;> simp [hone, he, hrest, hnext]
    · rw [if_neg hserved] at hgraph
      -- it did not, so nothing was struck after it
      have hlate : lateStrike nodes writes schedule = none := by
        simp only [lateStrike, hout]
        cases hrest : (nodes.exec schedule).rest with
        | nil => rfl
        | cons d ds => cases d <;> simp_all [servedNext]
      rw [hgraph.1, hlate]
      cases ((ainvokeCo nodes writes).exec schedule).outcome with
      | ok a => simp
      | error e =>
        simp only [List.nil_append, reduceCtorEq, false_implies, implies_true, iff_true]
        split <;> simp

/-- The timer runs out during the checkpoint write after the result was
    appended: the job reports a result, and then a failure. -/
theorem done_then_failed :
    let sent := ((runJobCo "j" (.ret { jobId := "j", status := .done }) 1).exec
      [.resume, .strike false .timerCancelled]).sent
    sent.map (·.status) = [.done, .failed] ∧ ¬ OneTerminal sent :=
  ⟨rfl, fun h => absurd h.at_most_one (by decide)⟩

/-! ### At least one message -/

/-- A job leaves no message exactly when every write it makes is struck before it is
    served. -/
theorem sent_eq_nil_iff (jobId : String) (nodes : Co PyExn Empty JobDonePayload) (writes : Nat)
    (schedule : List (Decision PyExn)) :
    ((runJobCo jobId nodes writes).exec schedule).sent = [] ↔ unserved nodes schedule = true := by
  obtain ⟨f, hsent⟩ := sent_runJobCo jobId nodes writes schedule
  have hgraph := exec_ainvokeCo nodes writes schedule
  rw [hsent, unserved]
  cases hout : (nodes.exec schedule).outcome with
  | error e =>
    -- only the failure is written
    simp only [hout] at hgraph
    obtain ⟨hnone, herror, hrest⟩ := hgraph
    rw [hnone, herror, hrest]
    cases hnext : servedNext (nodes.exec schedule).rest <;> simp
  | ok payload =>
    simp only [hout] at hgraph
    cases hserved : servedNext (nodes.exec schedule).rest with
    | true =>
      -- the result is out
      rw [if_pos hserved] at hgraph
      simp [hgraph.1]
    | false =>
      rw [if_neg (by simp [hserved])] at hgraph
      obtain ⟨hnone, ⟨e, he⟩, hrest⟩ := hgraph
      rw [hnone, he, hrest]
      cases hnext : servedNext (nodes.exec schedule).rest.tail <;> simp

/-! ### A job that nothing strikes -/

/-- What the nodes of a job come to before `publish_done`. -/
def comeTo (env : Env) (jobId : String) (req : AgentRequest) : Co PyExn Empty JobDonePayload :=
  match ainvoke env jobId req with
  | (.ok (), j) =>
    match donePayload j.state with
    | .ok p => .ret p
    | .error e => .raise e
  | (.error e, _) => .raise e

/-- A run whose state has a payload comes to it. -/
theorem comeTo_eq_ret {env : Env} {jobId : String} {req : AgentRequest} {p : JobDonePayload}
    (hok : (ainvoke env jobId req).1 = .ok ())
    (hp : donePayload (ainvoke env jobId req).2.state = .ok p) :
    comeTo env jobId req = .ret p := by
  unfold comeTo
  cases hrun : ainvoke env jobId req with
  | mk out j =>
    rw [hrun] at hok hp
    dsimp only at hok hp
    simp only [hok, hp]

/-- A run in which a node raises comes to the exception. -/
theorem comeTo_eq_raise {env : Env} {jobId : String} {req : AgentRequest} {e : PyExn}
    (herror : (ainvoke env jobId req).1 = .error e) :
    comeTo env jobId req = .raise e := by
  unfold comeTo
  cases hrun : ainvoke env jobId req with
  | mk out j =>
    rw [hrun] at herror
    dsimp only at herror
    simp only [herror]

/-- Undisturbed, a job sends the payload it comes to. -/
theorem exec_runJobCo_ret (jobId : String) (p : JobDonePayload) (writes : Nat) :
    ((runJobCo jobId (.ret p) writes).exec []).sent = [p] := by
  obtain ⟨f, hsent⟩ := sent_runJobCo jobId (.ret p) writes []
  have hgraph := exec_ainvokeCo (.ret p) writes []
  simp only [exec, servedNext, if_true, lateStrike] at hgraph
  rw [hsent, hgraph.1, hgraph.2, List.append_nil]

/-- Undisturbed, it sends the failure of the exception it comes to. -/
theorem exec_runJobCo_raise (jobId : String) (e : PyExn) (writes : Nat) :
    ((runJobCo jobId (.raise e) writes).exec []).sent = [failedPayload jobId (jobFailure e)] := by
  have hfailure : ∀ e, ((onJobError jobId e).exec []).sent =
      [failedPayload jobId (jobFailure e)] := fun e => exec_onJobError jobId e []
  cases e with
  -- the timer's own cancellation is told as a timeout
  | timerCancelled => exact hfailure .timeoutError
  | _ => exact hfailure _

/-- Undisturbed, a job leaves the messages of its run. -/
theorem exec_comeTo (env : Env) (jobId : String) (req : AgentRequest) (writes : Nat) :
    ((runJobCo jobId (comeTo env jobId req) writes).exec []).sent = runJob env jobId req := by
  rcases runJob_eq env jobId req with ⟨j, p, -, hp, hok, hstate, hjob⟩ | ⟨e, herror, hjob⟩
  · rw [comeTo_eq_ret hok (hstate ▸ hp), hjob, exec_runJobCo_ret]
  · rw [comeTo_eq_raise herror, hjob, exec_runJobCo_raise]

end MapServiceAgent.Native

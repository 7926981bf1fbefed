import Mathlib.Logic.Function.Basic
import MapServiceAgent.ForStd.Coroutine

/-!
# Interleaved coroutines

Many coroutines on one append-only stream. A scheduler starts coroutines under
names and, in any order, decides the next await of one of them. What the stream
holds of a name is what its coroutine would have sent alone, under the decisions
made on it.

## Key results

- `Co.exec_append_of_steps`: a run in two parts
- `Co.exec_of_steps_ended`: decisions that bring a run to its end
- `Pool.explains_run`: what a pool has come to, task by task
-/

namespace MapServiceAgent

namespace Co

variable {ε μ α : Type}

/-- One await decided: the messages the stream took, and what is left to run. A
    coroutine that has come to its end awaits nothing. -/
def step : Co ε μ α → Decision ε → Option (List μ × Co ε μ α)
  | .await msg k, .resume => some (msg.toList, k none)
  | .await msg k, .strike served e => some (if served then msg.toList else [], k (some e))
  | _, _ => none

/-- Several awaits decided in a row. -/
def steps : Co ε μ α → List (Decision ε) → Option (List μ × Co ε μ α)
  | m, [] => some ([], m)
  | m, d :: ds =>
    (m.step d).bind fun (sent, rest) => (rest.steps ds).map fun (more, last) => (sent ++ more, last)

/-- How a coroutine has ended, if it has. -/
def ended : Co ε μ α → Option (Except ε α)
  | .ret a => some (.ok a)
  | .raise e => some (.error e)
  | .await _ _ => none

/-- Several steps are one and the others. -/
theorem steps_cons_eq_some {m m' : Co ε μ α} {d : Decision ε} {ds : List (Decision ε)}
    {sent : List μ} : m.steps (d :: ds) = some (sent, m') ↔
      ∃ first rest more, m.step d = some (first, rest) ∧ rest.steps ds = some (more, m') ∧
        first ++ more = sent := by
  simp only [steps, Option.bind_eq_some_iff, Option.map_eq_some_iff, Prod.exists, Prod.mk.injEq]
  constructor
  · rintro ⟨first, rest, hstep, more, last, hsteps, hsent, rfl⟩
    exact ⟨first, rest, more, hstep, hsteps, hsent⟩
  · rintro ⟨first, rest, more, hstep, hsteps, hsent⟩
    exact ⟨first, rest, hstep, more, m', hsteps, hsent, rfl⟩

/-- One decision after the others. -/
theorem steps_snoc {m m' m'' : Co ε μ α} {ds : List (Decision ε)} {d : Decision ε}
    {sent more : List μ} (h : m.steps ds = some (sent, m')) (hd : m'.step d = some (more, m'')) :
    m.steps (ds ++ [d]) = some (sent ++ more, m'') := by
  induction ds generalizing m sent with
  | nil =>
    cases h
    exact steps_cons_eq_some.mpr ⟨more, m'', [], hd, rfl, List.append_nil _⟩
  | cons d' ds ih =>
    obtain ⟨first, rest, others, hstep, hsteps, rfl⟩ := steps_cons_eq_some.mp h
    exact steps_cons_eq_some.mpr
      ⟨first, rest, others ++ more, hstep, ih hsteps, (List.append_assoc ..).symm⟩

/-- After a step the run is that of what is left, with what the step sent before it. -/
theorem exec_cons_of_step {m m' : Co ε μ α} {d : Decision ε} {ds : List (Decision ε)}
    {sent : List μ} (h : m.step d = some (sent, m')) :
    m.exec (d :: ds) = (m'.exec ds).after sent := by
  cases m with
  -- what has ended takes no step
  | ret a => cases d <;> cases h
  | raise e => cases d <;> cases h
  | await msg k =>
    cases d with
    -- both sides are the same by definition
    | resume =>
      cases h
      rfl
    | strike served e =>
      cases h
      rfl

/-- What awaits has not ended. -/
theorem ended_of_step {m m' : Co ε μ α} {d : Decision ε} {sent : List μ}
    (h : m.step d = some (sent, m')) : m.ended = none := by
  cases m with
  | ret a => cases d <;> cases h
  | raise e => cases d <;> cases h
  | await msg k => rfl

/-- What was sent earlier stands before what was sent later. -/
theorem Ran.after_after (xs ys : List μ) (r : Ran ε μ α) :
    (r.after ys).after xs = r.after (xs ++ ys) := by
  simp [Ran.after]

/-- A run goes on from where some decisions have brought it. -/
theorem exec_append_of_steps {m m' : Co ε μ α} {ds ds' : List (Decision ε)} {sent : List μ}
    (h : m.steps ds = some (sent, m')) : m.exec (ds ++ ds') = (m'.exec ds').after sent := by
  induction ds generalizing m sent with
  | nil =>
    cases h
    rfl
  | cons d ds ih =>
    obtain ⟨first, rest, more, hstep, hsteps, rfl⟩ := steps_cons_eq_some.mp h
    rw [List.cons_append, exec_cons_of_step hstep, ih hsteps, Ran.after_after]

/-- A run comes to an end from where its decisions have brought it. -/
theorem exec_of_steps {m m' : Co ε μ α} {ds : List (Decision ε)} {sent : List μ}
    (h : m.steps ds = some (sent, m')) : m.exec ds = (m'.exec []).after sent := by
  rw [← exec_append_of_steps h, List.append_nil]

/-- What some decisions have sent is the start of what the run sends. -/
theorem sent_prefix_of_steps {m m' : Co ε μ α} {ds : List (Decision ε)} {sent : List μ}
    (h : m.steps ds = some (sent, m')) : sent <+: (m.exec ds).sent := by
  rw [exec_of_steps h]
  exact List.prefix_append ..

/-- A schedule that lets every await come back is as good as none. -/
theorem exec_resumed (m : Co ε μ α) {ds : List (Decision ε)} (h : ∀ d ∈ ds, d = .resume) :
    (m.exec ds).sent = (m.exec []).sent ∧ (m.exec ds).outcome = (m.exec []).outcome := by
  induction m generalizing ds with
  | ret a => cases ds <;> exact ⟨rfl, rfl⟩
  | raise e => cases ds <;> exact ⟨rfl, rfl⟩
  | await msg k ih =>
    cases ds with
    | nil => exact ⟨rfl, rfl⟩
    | cons d ds =>
      obtain rfl := h d List.mem_cons_self
      -- every await comes back, as it does past the end of a schedule
      obtain ⟨hsent, hout⟩ := ih none fun d hd => h d (List.mem_cons_of_mem _ hd)
      exact ⟨congrArg (msg.toList ++ ·) hsent, hout⟩

/-- A coroutine that has ended sends nothing more. -/
theorem exec_of_ended {m : Co ε μ α} {out : Except ε α} (h : m.ended = some out)
    (ds : List (Decision ε)) : m.exec ds = ⟨[], out, ds⟩ := by
  cases m with
  | ret a =>
    cases h
    cases ds <;> rfl
  | raise e =>
    cases h
    cases ds <;> rfl
  -- what awaits has not ended
  | await msg k => cases h

/-- Decisions that bring a run to its end are all of its schedule. -/
theorem exec_of_steps_ended {m m' : Co ε μ α} {ds : List (Decision ε)} {sent : List μ}
    {out : Except ε α} (h : m.steps ds = some (sent, m')) (hended : m'.ended = some out) :
    m.exec ds = ⟨sent, out, []⟩ := by
  rw [exec_of_steps h, exec_of_ended hended]
  simp [Ran.after]

end Co

/-! ### Pools -/

/-- Coroutines under names, and the stream they share. An entry of the stream
    says who sent it. -/
structure Pool (ι ε μ α : Type) where
  tasks : ι → Option (Co ε μ α) := fun _ => none
  log : List (ι × μ) := []

namespace Pool

variable {ι ε μ α : Type} [DecidableEq ι]

/-- What a scheduler does. -/
inductive Event (ι ε μ α : Type) where
  | spawn (i : ι) (m : Co ε μ α)
  | drive (i : ι) (d : Decision ε)

/-- A name starts one coroutine, and only a coroutine that awaits is driven. -/
def step (p : Pool ι ε μ α) : Event ι ε μ α → Option (Pool ι ε μ α)
  | .spawn i m =>
    if (p.tasks i).isNone then some { p with tasks := Function.update p.tasks i (some m) } else none
  | .drive i d => do
    let m ← p.tasks i
    let (sent, m) ← m.step d
    return { tasks := Function.update p.tasks i (some m), log := p.log ++ sent.map (i, ·) }

/-- The pool after some events, if each of them can happen. -/
def run : Pool ι ε μ α → List (Event ι ε μ α) → Option (Pool ι ε μ α)
  | p, [] => some p
  | p, e :: es => do (← p.step e).run es

/-- What the stream holds of one sender. -/
def sentBy (p : Pool ι ε μ α) (i : ι) : List μ :=
  (p.log.filter fun e => e.1 = i).map (·.2)

/-- The decisions made on one name. -/
def decisions (i : ι) (es : List (Event ι ε μ α)) : List (Decision ε) :=
  es.filterMap fun
    | .drive j d => if j = i then some d else none
    | .spawn .. => none

/-- What the events say of a name: it was never started and sent nothing, or it
    is where the decisions on it have brought its coroutine. -/
def Explains (es : List (Event ι ε μ α)) (p : Pool ι ε μ α) (i : ι) : Prop :=
  match p.tasks i with
  | none => p.sentBy i = [] ∧ decisions i es = [] ∧ ∀ m, .spawn i m ∉ es
  | some now => ∃ m, .spawn i m ∈ es ∧ m.steps (decisions i es) = some (p.sentBy i, now)

/-- No events explain the empty pool. -/
theorem explains_nil (i : ι) : Explains [] ({} : Pool ι ε μ α) i :=
  ⟨rfl, rfl, fun _ => List.not_mem_nil⟩

/-- The decisions about a task are those of the earlier events, then of the later. -/
@[simp] theorem decisions_append (i : ι) (es es' : List (Event ι ε μ α)) :
    decisions i (es ++ es') = decisions i es ++ decisions i es' :=
  List.filterMap_append

/-- Spawning a task is no decision. -/
@[simp] theorem decisions_spawn (i j : ι) (m : Co ε μ α) :
    decisions i [.spawn j m] = [] := rfl

/-- Driving a task is one about it. -/
theorem decisions_drive_self (i : ι) (d : Decision ε) :
    decisions i [(.drive i d : Event ι ε μ α)] = [d] := by
  simp [decisions]

/-- Driving another one is none. -/
theorem decisions_drive_ne {i j : ι} (h : j ≠ i) (d : Decision ε) :
    decisions i [(.drive j d : Event ι ε μ α)] = [] := by
  simp [decisions, h]

/-- Every event leaves each name explained. -/
theorem Explains.step {es : List (Event ι ε μ α)} {p p' : Pool ι ε μ α} {e : Event ι ε μ α} {i : ι}
    (h : Explains es p i) (hstep : p.step e = some p') : Explains (es ++ [e]) p' i := by
  cases e with
  | spawn j m =>
    simp only [Pool.step, Option.ite_none_right_eq_some, Option.some.injEq] at hstep
    obtain ⟨hfree, rfl⟩ := hstep
    have hsent : ∀ tasks : ι → Option (Co ε μ α), sentBy ⟨tasks, p.log⟩ i = p.sentBy i :=
      fun _ => rfl
    by_cases hij : j = i
    · -- the task has just started
      subst hij
      rw [Option.isNone_iff_eq_none] at hfree
      rw [Explains, hfree] at h
      simp only [Explains, Function.update_self, hsent]
      exact ⟨m, by simp, by simp [h.1, h.2.1, Co.steps]⟩
    · simp only [Explains, Function.update_of_ne (Ne.symm hij), hsent] at h ⊢
      -- another name: it is started now, or it was before
      cases hi : p.tasks i with
      | none =>
        rw [hi] at h
        -- the event starts another task, not this one
        refine ⟨h.1, by simpa using h.2.1, fun m' hm' => ?_⟩
        rcases List.mem_append.mp hm' with hm' | hm'
        · exact h.2.2 m' hm'
        · cases List.mem_singleton.mp hm'
          exact hij rfl
      | some now =>
        rw [hi] at h
        obtain ⟨m', hm', hsteps⟩ := h
        exact ⟨m', List.mem_append_left _ hm', by simpa using hsteps⟩
  | drive j d =>
    simp only [Pool.step, Option.bind_eq_bind, Option.bind_eq_some_iff] at hstep
    obtain ⟨now, hnow, ⟨sent, next⟩, hd, hstep⟩ := hstep
    cases hstep
    by_cases hij : j = i
    · -- the driven task takes one more decision
      subst hij
      have hsent : sentBy ⟨Function.update p.tasks j (some next), p.log ++ sent.map (j, ·)⟩ j =
          p.sentBy j ++ sent := by
        simp [sentBy, List.filter_map, Function.comp_def]
      rw [Explains, hnow] at h
      obtain ⟨m, hm, hsteps⟩ := h
      simp only [Explains, Function.update_self, hsent, decisions_append, decisions_drive_self]
      exact ⟨m, List.mem_append_left _ hm, Co.steps_snoc hsteps hd⟩
    · -- the others do not notice
      have hsent : sentBy ⟨Function.update p.tasks j (some next), p.log ++ sent.map (j, ·)⟩ i =
          p.sentBy i := by
        simp [sentBy, List.filter_map, Function.comp_def, hij]
      simp only [Explains, Function.update_of_ne (Ne.symm hij), hsent, decisions_append,
        decisions_drive_ne hij, List.append_nil, List.mem_append, List.mem_singleton, reduceCtorEq,
        or_false] at h ⊢
      exact h

/-- What explains a pool, and the events after it, explain the pool they lead to. -/
theorem explains_run_from {es es' : List (Event ι ε μ α)} {p p' : Pool ι ε μ α} {i : ι}
    (h : Explains es p i) (hrun : p.run es' = some p') : Explains (es ++ es') p' i := by
  induction es' generalizing es p with
  | nil =>
    cases hrun
    rwa [List.append_nil]
  | cons e es' ih =>
    simp only [run, Option.bind_eq_bind, Option.bind_eq_some_iff] at hrun
    obtain ⟨p₁, hstep, hrun⟩ := hrun
    have := ih (h.step hstep) hrun
    rwa [List.append_assoc] at this

/-- A run may go on by one event. -/
theorem run_snoc {es : List (Event ι ε μ α)} {e : Event ι ε μ α} {p p' p'' : Pool ι ε μ α}
    (hrun : p.run es = some p') (hstep : p'.step e = some p'') : p.run (es ++ [e]) = some p'' := by
  induction es generalizing p with
  | nil =>
    cases hrun
    simp [run, hstep]
  | cons e' es ih =>
    simp only [run, Option.bind_eq_bind, Option.bind_eq_some_iff, List.cons_append] at hrun ⊢
    obtain ⟨p₁, hfirst, hrun⟩ := hrun
    exact ⟨p₁, hfirst, ih hrun⟩

/-- Whatever a scheduler does, each task is where the decisions on it have brought
    it, and the stream holds what it sent on the way. -/
theorem explains_run {es : List (Event ι ε μ α)} {p : Pool ι ε μ α}
    (hrun : run {} es = some p) (i : ι) : Explains es p i :=
  explains_run_from (explains_nil i) hrun

end Pool

end MapServiceAgent

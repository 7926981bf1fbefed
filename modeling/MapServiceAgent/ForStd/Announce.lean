import MapServiceAgent.ForStd.Coroutine
import MapServiceAgent.ForStd.StateGraph

/-!
# Graphs that announce their nodes

A state graph run as a coroutine: before each node something is awaited, an
announcement for instance. Whatever strikes there, what is announced are nodes
the plain run comes by, in its order; and if nothing does, the coroutine ends as
the plain run.

## Key results

- `exec_mapMsg`: a run seen through a projection of its messages
- `exec_driveCo`: announcements and ending under any schedule
- `exec_driveCo_nil`: the same when nothing strikes
- `runTo_sound`: where a run comes to a stop
- `runTo_of_reaches`: a run that comes by a node that stops it ends there
-/

namespace MapServiceAgent

namespace Co

variable {ε μ ν α β : Type}

/-- Only the messages `f` lets through, as it rewrites them. -/
def mapMsg (f : μ → Option ν) : Co ε μ α → Co ε ν α
  | .ret a => .ret a
  | .raise e => .raise e
  | .await msg k => .await (msg.bind f) fun x => (k x).mapMsg f

/-- Messages filtered after a run or on the way are the same. -/
theorem exec_mapMsg (f : μ → Option ν) (m : Co ε μ α) (ds : List (Decision ε)) :
    (m.mapMsg f).exec ds =
      ⟨(m.exec ds).sent.filterMap f, (m.exec ds).outcome, (m.exec ds).rest⟩ := by
  have hmsg : ∀ msg : Option μ, (msg.bind f).toList = msg.toList.filterMap f := fun msg => by
    cases msg with
    | none => rfl
    | some x => cases h : f x <;> simp [h]
  induction m generalizing ds with
  | ret a => rfl
  | raise e => rfl
  | await msg k ih =>
    cases ds with
    -- no decision is left, so every await resumes
    | nil => simp [mapMsg, exec, ih, Ran.after, hmsg]
    | cons d ds =>
      cases d with
      | resume => simp [mapMsg, exec, ih, Ran.after, hmsg]
      -- a strike lets its message out or keeps it back
      | strike served e => cases served <;> simp [mapMsg, exec, ih, Ran.after, hmsg]

/-- A run whose messages are all wrapped. -/
theorem exec_mapMsg_some (f : μ → ν) (m : Co ε μ α) (ds : List (Decision ε)) :
    (m.mapMsg (some ∘ f)).exec ds =
      ⟨(m.exec ds).sent.map f, (m.exec ds).outcome, (m.exec ds).rest⟩ := by
  rw [exec_mapMsg, List.filterMap_eq_map]

/-- A computation that awaits nothing. -/
def ofExcept : Except ε α → Co ε μ α
  | .ok a => .ret a
  | .error e => .raise e

/-- What has already come out comes out at once, and sends nothing. -/
theorem exec_ofExcept (out : Except ε α) (ds : List (Decision ε)) :
    (ofExcept out : Co ε μ α).exec ds = ⟨[], out, ds⟩ := by
  cases out <;> rfl

/-- After the last message, what is still to run does not show on the stream. -/
theorem sent_andThen_quiet {r : Ran ε μ α} {onOk : α → Co ε μ β} {onError : ε → Co ε μ β}
    (hok : ∀ a ds, ((onOk a).exec ds).sent = []) (herror : ∀ e ds, ((onError e).exec ds).sent = []) :
    (r.andThen onOk onError).sent = r.sent := by
  unfold Ran.andThen
  cases r.outcome with
  | ok a => simp [Ran.after, hok]
  | error e => simp [Ran.after, herror]

/-- A return sends nothing. -/
theorem sent_ret (a : α) (ds : List (Decision ε)) : ((ret a : Co ε μ α).exec ds).sent = [] := by
  cases ds <;> rfl

/-- Nor does a raise. -/
theorem sent_raise (e : ε) (ds : List (Decision ε)) : ((raise e : Co ε μ α).exec ds).sent = [] := by
  cases ds <;> rfl

/-- A sequence that returns has come to the end of both its parts. -/
theorem exec_bind_ok {m : Co ε μ α} {f : α → Co ε μ β} {ds : List (Decision ε)} {b : β}
    (h : ((m.bind f).exec ds).outcome = .ok b) :
    ∃ a, (m.exec ds).outcome = .ok a ∧ ((f a).exec (m.exec ds).rest).outcome = .ok b := by
  rw [exec_bind, Ran.andThen] at h
  cases hout : (m.exec ds).outcome with
  | ok a =>
    rw [hout] at h
    exact ⟨a, rfl, h⟩
  | error e =>
    rw [hout] at h
    cases hrest : (m.exec ds).rest <;> rw [hrest] at h <;> cases h

/-- Renaming messages goes into a handler. -/
theorem mapMsg_tryCatch (f : μ → Option ν) (m : Co ε μ α) (h : ε → Co ε μ α) :
    (m.tryCatch h).mapMsg f = (m.mapMsg f).tryCatch fun e => (h e).mapMsg f := by
  induction m with
  | ret a => rfl
  | raise e => rfl
  | await msg k ih =>
    simp only [tryCatch, mapMsg, ih]

end Co

namespace StateGraph

variable {ν ε σ μ : Type} (g : StateGraph ν ε σ) (before : ν → Co ε μ Unit) (stop : ν → Bool)
  (limit : ε)

/-- The state a run from node `n` comes to a stop in. A run of more than `fuel`
    nodes raises `limit`. -/
def runTo : Nat → ν → σ → Except ε σ
  | 0, _, _ => .error limit
  | fuel + 1, n, s =>
    if stop n then .ok s
    else
      match g.node n s with
      | (.error e, _) => .error e
      | (.ok (), s') =>
        match g.route n s' with
        | none => .ok s'
        | some m => runTo fuel m s'

/-- The nodes of that run. -/
def path : Nat → ν → σ → List ν
  | 0, _, _ => []
  | fuel + 1, n, s =>
    if stop n then []
    else
      n :: match g.node n s with
        | (.error _, _) => []
        | (.ok (), s') =>
          match g.route n s' with
          | none => []
          | some m => path fuel m s'

/-- That run as a coroutine, with `before n` ahead of each node. -/
def driveCo : Nat → ν → σ → Co ε μ σ
  | 0, _, _ => .raise limit
  | fuel + 1, n, s =>
    if stop n then .ret s
    else
      (before n).bind fun _ =>
        match g.node n s with
        | (.error e, _) => .raise e
        | (.ok (), s') =>
          match g.route n s' with
          | none => .ret s'
          | some m => driveCo fuel m s'

variable {g before stop limit}

/-- Under any schedule, what is announced are nodes of the plain run, in its
    order; and a run that comes to a stop does so where the plain one does. -/
theorem exec_driveCo (g : StateGraph ν ε σ) (stop : ν → Bool) (limit : ε) {msg : ν → μ}
    (hbefore : ∀ n ds, ((before n).exec ds).sent.Sublist [msg n]) (fuel : Nat) (n : ν) (s : σ)
    (ds : List (Decision ε)) :
    ((g.driveCo before stop limit fuel n s).exec ds).sent.Sublist
        ((g.path stop fuel n s).map msg) ∧
      ∀ t, ((g.driveCo before stop limit fuel n s).exec ds).outcome = .ok t →
        g.runTo stop limit fuel n s = .ok t := by
  induction fuel generalizing n s ds with
  | zero => exact ⟨List.Sublist.refl _, fun t h => by cases h⟩
  | succ fuel ih =>
    by_cases hstop : stop n = true
    · simp only [driveCo, path, runTo, if_pos hstop]
      exact ⟨List.Sublist.refl _, fun t h => h⟩
    · simp only [driveCo, path, runTo, if_neg hstop, Co.exec_bind, Co.Ran.andThen]
      have hsent := hbefore n ds
      cases hout : ((before n).exec ds).outcome with
      | error e =>
        -- struck before the node: it may have been announced, and that is all
        dsimp only [Co.exec, Co.Ran.after]
        rw [List.append_nil, List.map_cons]
        exact ⟨hsent.trans (List.singleton_sublist.mpr List.mem_cons_self), fun t h => by cases h⟩
      | ok _ =>
        dsimp only
        rw [List.map_cons]
        cases hnode : g.node n s with
        | mk out s' =>
          cases out with
          | error e =>
            -- the node raises, and is the last announced
            refine ⟨?_, fun t h => by cases h⟩
            dsimp only [Co.exec, Co.Ran.after]
            rwa [List.append_nil]
          | ok _ =>
            dsimp only
            cases hroute : g.route n s' with
            | none =>
              -- no edge leads on from the node
              refine ⟨?_, fun t h => h⟩
              dsimp only [Co.exec, Co.Ran.after]
              rwa [List.append_nil]
            | some m =>
              -- an edge does, and the rest follows by induction
              obtain ⟨hrest, hend⟩ := ih m s' ((before n).exec ds).rest
              exact ⟨hsent.append hrest, hend⟩

/-- When nothing strikes, each node of the plain run has its turn, and the end is
    the same. -/
theorem exec_driveCo_nil {sent : ν → List μ}
    (hbefore : ∀ n, (before n).exec [] = ⟨sent n, .ok (), []⟩) (fuel : Nat) (n : ν) (s : σ) :
    (g.driveCo before stop limit fuel n s).exec [] =
      ⟨(g.path stop fuel n s).flatMap sent, g.runTo stop limit fuel n s, []⟩ := by
  induction fuel generalizing n s with
  | zero => rfl
  | succ fuel ih =>
    by_cases hstop : stop n = true
    · simp only [driveCo, path, runTo, if_pos hstop]
      rfl
    · simp only [driveCo, path, runTo, if_neg hstop, Co.exec_bind, hbefore, Co.Ran.andThen]
      cases hnode : g.node n s with
      | mk out s' =>
        cases out with
        -- the node raises
        | error e => simp [Co.exec, Co.Ran.after]
        | ok _ =>
          dsimp only
          cases hroute : g.route n s' with
          -- no edge leads on
          | none => simp [Co.exec, Co.Ran.after]
          | some m => simp [ih, Co.Ran.after]

/-- What every node preserves holds where a run comes to a stop. -/
theorem runTo_preserves (I : σ → Prop) (hnode : ∀ n s, I s → I (g.node n s).2) {fuel : Nat} {n : ν}
    {s t : σ} (hs : I s) (h : g.runTo stop limit fuel n s = .ok t) : I t := by
  induction fuel generalizing n s with
  | zero => exact nomatch h
  | succ fuel ih =>
    have hI := hnode n s hs
    simp only [runTo] at h
    split at h
    · cases h
      exact hs
    · split at h
      · cases h
      · rename_i s' hn
        rw [hn] at hI
        split at h
        · cases h
          exact hI
        · exact ih hI h

/-- Where no edge leads on from a node that stops a run, a run that comes by such a
    node ends there. -/
theorem runTo_of_reaches (rank : ν → Nat) (hrank : ∀ n m s, g.route n s = some m → rank m < rank n)
    (hend : ∀ n s, stop n = true → g.route n s = none) {s₀ t : σ} {m : ν} {fuel : Nat}
    (hfuel : rank g.entry < fuel) (h : Reaches g s₀ m t) (hstop : stop m = true) :
    g.runTo stop limit fuel g.entry s₀ = .ok t := by
  -- from any node on the way, what is left of the run ends the same
  have hrest : ∀ {n s}, Reaches g s₀ n s → ∃ fuel', rank n < fuel' ∧
      g.runTo stop limit fuel g.entry s₀ = g.runTo stop limit fuel' n s := by
    intro n s hr
    induction hr with
    | entry => exact ⟨fuel, hfuel, rfl⟩
    | @step n m s s' _ hnode hroute ih =>
      obtain ⟨fuel', hlt, hrun⟩ := ih
      obtain ⟨k, rfl⟩ : ∃ k, fuel' = k + 1 := ⟨fuel' - 1, by omega⟩
      -- a node with an edge is not one to stop at
      have hgo : ¬ stop n = true := fun hn => by
        rw [hend n s' hn] at hroute
        cases hroute
      have hlow := hrank n m s' hroute
      refine ⟨k, by omega, hrun.trans ?_⟩
      rw [runTo, if_neg hgo, hnode]
      dsimp only
      rw [hroute]
  obtain ⟨fuel', hlt, hrun⟩ := hrest h
  obtain ⟨k, rfl⟩ : ∃ k, fuel' = k + 1 := ⟨fuel' - 1, by omega⟩
  rw [hrun, runTo, if_pos hstop]

/-- A run comes to a stop at a node that is one, or where no edge leads on; or a
    node on its way raises. -/
theorem runTo_sound (stop : ν → Bool) (limit : ε) (rank : ν → Nat)
    (hrank : ∀ n m s, g.route n s = some m → rank m < rank n)
    {s₀ : σ} {fuel : Nat} {n : ν} {s : σ} (hr : Reaches g s₀ n s) (hfuel : rank n < fuel) :
    (∃ t m, g.runTo stop limit fuel n s = .ok t ∧ Reaches g s₀ m t ∧ stop m = true) ∨
    (∃ t m u, g.runTo stop limit fuel n s = .ok t ∧ Reaches g s₀ m u ∧ stop m = false ∧
      g.node m u = (.ok (), t) ∧ g.route m t = none) ∨
    ∃ e m u t, g.runTo stop limit fuel n s = .error e ∧ Reaches g s₀ m u ∧ stop m = false ∧
      g.node m u = (.error e, t) := by
  induction fuel generalizing n s with
  | zero => exact absurd hfuel (Nat.not_lt_zero _)
  | succ fuel ih =>
    cases hstop : stop n with
    | true =>
      simp only [runTo, hstop, if_true]
      -- the run stops here
      exact .inl ⟨s, n, rfl, hr, hstop⟩
    | false =>
      simp only [runTo, hstop, Bool.false_eq_true, if_false]
      cases hnode : g.node n s with
      | mk out s' =>
        cases out with
        -- or the node raises, or no edge leads on
        | error e => exact .inr (.inr ⟨e, n, s, s', rfl, hr, hstop, hnode⟩)
        | ok _ =>
          dsimp only
          cases hroute : g.route n s' with
          | none => exact .inr (.inl ⟨s', n, s, rfl, hr, hstop, hnode, hroute⟩)
          | some m =>
            have := hrank _ _ _ hroute
            exact ih (hr.step hnode hroute) (by omega)

end StateGraph

end MapServiceAgent

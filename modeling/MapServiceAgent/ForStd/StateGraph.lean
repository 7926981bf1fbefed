/-!
# State graphs

A graph of nodes that share one mutable state. Running a node rewrites the
state and may raise; what was written before a raise stays written. After a
node that did not raise, the graph routes to the next node or ends.

## Key results

- `Reaches.assert`: Floyd's method, one assertion a node
- `run_sound`: whatever a run returns was left by a node it reached
- `run_of_reaches`: a run goes on from wherever it comes by
- `run_preserves`: what every node preserves holds at the end of a run
- `run_isSome`: a graph whose routes lower a rank ends
- `reaches_of_stateAt`: where a run comes by can be computed
-/

namespace MapServiceAgent

/-- Nodes `ν`, exceptions `ε`, state `σ`. -/
structure StateGraph (ν ε σ : Type) where
  entry : ν
  node : ν → σ → Except ε Unit × σ
  /-- The node to run next; `none` ends the run. -/
  route : ν → σ → Option ν

namespace StateGraph

variable {ν ε σ : Type} (g : StateGraph ν ε σ)

/-- A run from `s₀` comes to run node `n` in state `s`. -/
inductive Reaches (s₀ : σ) : ν → σ → Prop where
  | entry : Reaches s₀ g.entry s₀
  | step {n m : ν} {s s' : σ} : Reaches s₀ n s → g.node n s = (.ok (), s') →
      g.route n s' = some m → Reaches s₀ m s'

variable {g}

/-- Floyd's method: assertions that hold at the entry and along every edge
    hold whenever a run comes by. -/
theorem Reaches.assert {s₀ : σ} (A : ν → σ → Prop) (hentry : A g.entry s₀)
    (hstep : ∀ n m s s', A n s → g.node n s = (.ok (), s') → g.route n s' = some m → A m s')
    {n : ν} {s : σ} (h : Reaches g s₀ n s) : A n s := by
  induction h with
  | entry => exact hentry
  | step _ hnode hroute ih => exact hstep _ _ _ _ ih hnode hroute

/-- The same, where a step may use that a run has come by. -/
theorem Reaches.assert_reached {s₀ : σ} (A : ν → σ → Prop) (hentry : A g.entry s₀)
    (hstep : ∀ n m s s', Reaches g s₀ n s → A n s → g.node n s = (.ok (), s') →
      g.route n s' = some m → A m s')
    {n : ν} {s : σ} (h : Reaches g s₀ n s) : A n s := by
  induction h with
  | entry => exact hentry
  | step hreach hnode hroute ih => exact hstep _ _ _ _ hreach ih hnode hroute

/-- What every node preserves holds whenever a run comes by. -/
theorem Reaches.invariant {s₀ : σ} (I : σ → Prop) (hentry : I s₀)
    (hnode : ∀ n s, I s → I (g.node n s).2) {n : ν} {s : σ} (h : Reaches g s₀ n s) : I s := by
  refine h.assert (fun _ s => I s) hentry fun n m s s' hI hn _ => ?_
  have := hnode n s hI
  rwa [hn] at this

/-- How a run ends: by itself, or by an exception. -/
abbrev Ending (ε σ : Type) := Except ε Unit × σ

variable (g)

/-- Run from node `n`, through at most `fuel` nodes. -/
def run : Nat → ν → σ → Option (Ending ε σ)
  | 0, _, _ => none
  | fuel + 1, n, s =>
    match g.node n s with
    | (.error e, s') => some (.error e, s')
    | (.ok (), s') =>
      match g.route n s' with
      | none => some (.ok (), s')
      | some m => run fuel m s'

variable {g}

/-- Whatever a run returns was left by a node it reached. -/
theorem run_sound {s₀ : σ} {fuel : Nat} {n : ν} {s s' : σ} {out : Except ε Unit}
    (hr : Reaches g s₀ n s) (h : g.run fuel n s = some (out, s')) :
    ∃ m t, Reaches g s₀ m t ∧ g.node m t = (out, s') ∧ (out = .ok () → g.route m s' = none) := by
  induction fuel generalizing n s with
  | zero => exact nomatch h
  | succ fuel ih =>
    simp only [run] at h
    split at h
    · -- the run ends where a node raises
      rename_i e t hnode
      cases h
      exact ⟨n, s, hr, hnode, fun h => nomatch h⟩
    · rename_i t hnode
      split at h
      · -- or where no edge leads on
        rename_i hroute
        cases h
        exact ⟨n, s, hr, hnode, fun _ => hroute⟩
      · rename_i m hroute
        exact ih (hr.step hnode hroute) h

/-- What every node preserves holds at the end of a run. -/
theorem run_preserves (I : σ → Prop) (hnode : ∀ n s, I s → I (g.node n s).2) {fuel : Nat} {n : ν}
    {s s' : σ} {out : Except ε Unit} (hs : I s) (h : g.run fuel n s = some (out, s')) : I s' := by
  induction fuel generalizing n s with
  | zero => exact nomatch h
  | succ fuel ih =>
    -- every node keeps the invariant, also one that raises
    have hI := hnode n s hs
    simp only [run] at h
    split at h
    · rename_i e t hn
      rw [hn] at hI
      cases h
      exact hI
    · rename_i t hn
      rw [hn] at hI
      split at h
      · cases h
        exact hI
      · exact ih hI h

/-- A run goes on from wherever it comes by. -/
theorem run_of_reaches {s₀ : σ} {fuel : Nat} {r : Ending ε σ} {n : ν} {s : σ}
    (h : Reaches g s₀ n s) (hrun : g.run fuel g.entry s₀ = some r) :
    ∃ fuel', g.run fuel' n s = some r := by
  induction h with
  | entry => exact ⟨fuel, hrun⟩
  | step _ hnode hroute ih =>
    obtain ⟨fuel', hrun'⟩ := ih
    cases fuel' with
    | zero => exact nomatch hrun'
    | succ fuel' =>
      rw [run, hnode] at hrun'
      simp only [hroute] at hrun'
      exact ⟨fuel', hrun'⟩

/-- The state in which a run from node `n` first comes to run node `m`, if it does
    within `fuel` nodes. -/
def stateAt [DecidableEq ν] (g : StateGraph ν ε σ) (m : ν) : Nat → ν → σ → Option σ
  | 0, _, _ => none
  | fuel + 1, n, s =>
    if n = m then some s
    else
      match g.node n s with
      | (.error _, _) => none
      | (.ok (), s') => (g.route n s').bind fun k => stateAt g m fuel k s'

/-- A run does come by there. -/
theorem reaches_of_stateAt [DecidableEq ν] {s₀ : σ} {fuel : Nat} {n m : ν} {s t : σ}
    (hr : Reaches g s₀ n s) (h : g.stateAt m fuel n s = some t) : Reaches g s₀ m t := by
  induction fuel generalizing n s with
  | zero => exact nomatch h
  | succ fuel ih =>
    rw [stateAt] at h
    split at h
    · -- the node that was looked for
      rename_i hnm
      cases h
      exact hnm ▸ hr
    · split at h
      · exact nomatch h
      · rename_i s' hnode
        obtain ⟨k, hroute, h⟩ := Option.bind_eq_some_iff.mp h
        exact ih (hr.step hnode hroute) h

/-- A graph whose routes lower a rank ends. -/
theorem run_isSome (rank : ν → Nat)
    (hrank : ∀ n m s, g.route n s = some m → rank m < rank n) {fuel : Nat} {n : ν} (s : σ)
    (hfuel : rank n < fuel) : (g.run fuel n s).isSome := by
  induction fuel generalizing n s with
  | zero => exact absurd hfuel (Nat.not_lt_zero _)
  | succ fuel ih =>
    simp only [run]
    split
    · rfl
    · split
      · rfl
      · rename_i t hnode m hroute
        have := hrank _ _ _ hroute
        exact ih _ (by omega)

end StateGraph

end MapServiceAgent

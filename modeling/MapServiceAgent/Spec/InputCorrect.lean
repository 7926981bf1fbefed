import MapServiceAgent.ForStd.Except
import MapServiceAgent.Native.InputNodes

/-!
# What input and strategy promise

The requests that pass `parse_input`, and the plan that `plan_strategy` builds
for them.

## Key results

- `parseInput_ok`: an unfailed job has a request within bounds
- `planStrategy_ok`: one plan day for each day of the trip, none without a target
-/

namespace MapServiceAgent.Native

variable {env : Env} {s s' : AgentState}

/-! ### parse_input -/

/-- What `parse_input` checks of a request. -/
structure ValidRequest (req : AgentRequest) : Prop where
  span_nonneg : 0 ≤ req.date.spanDays
  span_le : req.date.spanDays ≤ maxRangeDays
  time_lt : req.date.timeStart.ge? req.date.timeEnd = some false
  day_le : ∀ p ∈ req.given, p.day ≤ numDays req
  route_order : req.stage = .route → (req.given.map (·.day)).Pairwise (· ≤ ·)
  route_two : req.stage = .route → 2 ≤ req.given.length

/-- A valid trip has a day. -/
theorem ValidRequest.one_le_numDays {req : AgentRequest} (h : ValidRequest req) :
    1 ≤ numDays req := by
  have := h.span_nonneg
  unfold numDays
  omega

/-- An unfailed job is as it was, and its request within bounds. -/
theorem parseInput_ok (h : parseInput s = .ok s') (hok : s'.failed = false) :
    s' = s ∧ ValidRequest s.request := by
  -- each refusal leaves a failed state
  have hfail : ∀ e c, e ≠ "" → s.fail e c = s' → False := by
    intro e c he hs
    rw [← hs, AgentState.failed_fail] at hok
    simp [he] at hok
  unfold parseInput at h
  dsimp only at h
  split at h
  · -- the dates are in order
    exact (hfail _ _ (by decide) (Except.ok.inj h)).elim
  rename_i hspan
  split at h
  · -- and not too far apart
    exact (hfail _ _ (by decide) (Except.ok.inj h)).elim
  rename_i hmax
  split at h
  · -- the times can be compared
    cases h
  · exact (hfail _ _ (by decide) (Except.ok.inj h)).elim
  rename_i htime
  split at h
  · -- no place is on a day after the last
    exact (hfail _ _ (by decide) (Except.ok.inj h)).elim
  rename_i hdays
  split at h
  · -- a route is in day order
    exact (hfail _ _ (by decide) (Except.ok.inj h)).elim
  rename_i horder
  split at h
  · -- and has places, two at least
    exact (hfail _ _ (by decide) (Except.ok.inj h)).elim
  split at h
  · exact (hfail _ _ (by decide) (Except.ok.inj h)).elim
  rename_i htwo
  -- no check struck, so each holds
  refine ⟨(Except.ok.inj h).symm, not_lt.mp hspan, not_lt.mp hmax, htime, ?_, ?_, ?_⟩
  · intro p hp
    by_contra hlt
    refine hdays (List.any_eq_true.mpr ⟨p.day, List.mem_map_of_mem hp, ?_⟩)
    exact decide_eq_true (not_le.mp hlt)
  · intro hstage
    have heq : s.request.given.map (·.day) = sortedBy id (s.request.given.map (·.day)) := by
      by_contra hne
      exact horder ⟨hstage, hne⟩
    rw [heq]
    exact sortedBy_pairwise id _
  · intro hstage
    by_contra hlt
    exact htwo ⟨hstage, by simpa using hlt⟩

/-! ### plan_strategy -/

/-- Each day of the trip is looked up, whether forecasts came or not. -/
theorem dailyPops_length {pf : Platform} {weather : Option Json} {dateStart : Date} {days : Nat}
    {pops : List (Option Int)} (h : dailyPops pf weather dateStart days = .ok pops) :
    pops.length = days := by
  unfold dailyPops at h
  dsimp only at h
  split at h
  · obtain ⟨daily, -, h⟩ := bind_eq_ok.mp h
    cases h
    simp
  · cases h
    simp

/-- A plan for the days from 1 to `n`, each with at least two stops to find. -/
structure Plan.Covers (plan : Plan) (n : Int) : Prop where
  days : ∀ d, 1 ≤ d → d ≤ n → ∃ x ∈ plan.days, x.day = d
  two_le : ∀ x ∈ plan.days, 2 ≤ x.targetStops

/-- A plan with a forecast, or none, for each day has every day. -/
theorem planFor_covers {req : AgentRequest} {pops : List (Option Int)}
    (h : pops.length = (numDays req).toNat) : (planFor req pops).Covers (numDays req) := by
  constructor
  · -- day `d` is planned from entry `d - 1`
    intro d hd hle
    have hlt : (d - 1).toNat < pops.length := by omega
    have hmem : (pops[(d - 1).toNat], (d - 1).toNat) ∈ pops.zipIdx :=
      List.mem_zipIdx_iff_getElem?.mpr (by simp)
    refine ⟨_, List.mem_map_of_mem hmem, ?_⟩
    dsimp only
    omega
  · -- each day has two stops at least
    intro x hx
    obtain ⟨y, -, rfl⟩ := List.mem_map.mp hx
    exact two_le_targetStops _

/-- An unfailed job gets a plan day for each day of the trip. -/
theorem planStrategy_ok (h : planStrategy env s = .ok s') (hok : s.failed = false) :
    ∃ plan, s' = { s with plan := some plan } ∧ plan.Covers (numDays s.request) := by
  unfold planStrategy at h
  rw [if_neg (by simp [hok])] at h
  obtain ⟨pops, hpops, h⟩ := bind_eq_ok.mp h
  cases h
  exact ⟨_, rfl, planFor_covers (dailyPops_length hpops)⟩

end MapServiceAgent.Native

import MapServiceAgent.Native.EvalRun
import MapServiceAgent.Spec.AgentGraphCorrect
import MapServiceAgent.Spec.StatsCorrect

/-!
# What the comparison with a baseline can find

The program compares its sums with a baseline only after every case has met the
standard. By then no axis can be worse than in any earlier run, so all that is
ever reported is an axis that was not measured, and the tolerance decides
nothing.

## Key results

- `ratio_bounds`: the axes are between 0 and 1
- `flawless_summarize`: what the sums are once the standard is met
- `compare_flawless`: what `compare` reports then
- `regressions_unmeasured`: how a run with a baseline ends
-/

namespace MapServiceAgent.Native

variable {pf : Platform}

/-! ### Ratios -/

/-- An axis: not measured, or between 0 and 1. -/
def IsAxis (v : Json) : Prop := v = .null ∨ ∃ q : ℚ, v = .float (.fin q) ∧ 0 ≤ q ∧ q ≤ 1

/-- A share of a count is an axis: a number from 0 to 1, or none. -/
theorem ratio_bounds {num den : Nat} (h : num ≤ den) : IsAxis (ratio num den) := by
  unfold ratio
  split
  · -- of no cases there is none
    exact .inl rfl
  · have hle : (num : ℚ) / den ≤ 1 := div_le_one_of_le₀ (by exact_mod_cast h) (by positivity)
    obtain ⟨hlo, hhi⟩ := round4_bounds (by positivity) hle
    exact .inr ⟨_, rfl, hlo, hhi⟩

/-- Zero is rounded to itself. -/
theorem round4_zero : round4 0 = 0 := by decide +kernel

/-- One is rounded to itself. -/
theorem round4_one : round4 1 = 1 := by decide +kernel

/-- None of some is 0. -/
theorem ratio_zero {den : Nat} (h : den ≠ 0) : ratio 0 den = .float 0 := by
  rw [ratio, if_neg h, Nat.cast_zero, zero_div, round4_zero]
  rfl

/-- All of some is 1. -/
theorem ratio_self {den : Nat} (h : den ≠ 0) : ratio den den = .float 1 := by
  have hne : (den : ℚ) ≠ 0 := by exact_mod_cast h
  rw [ratio, if_neg h, div_self hne, round4_one]
  rfl

/-- All of them, if there are any. -/
theorem ratio_all {α : Type} {p : α → Bool} {l : List α} (h : ∀ a ∈ l, p a = true) :
    ratio (l.countP p) l.length = .float 1 ∨ ratio (l.countP p) l.length = .null := by
  rw [List.countP_eq_length.mpr h]
  by_cases hl : l.length = 0
  · exact .inr (if_pos hl)
  · exact .inl (ratio_self hl)

/-! ### Sums -/

/-- The entries of a summary: the number of cases, and axes. -/
theorem summarize_axes {scored : List CaseScore} :
    ∀ e ∈ CaseScore.summarize scored, e.1 = "cases" ∨ IsAxis e.2 := by
  unfold CaseScore.summarize
  split
  · exact fun e he => .inl (List.mem_singleton.mp he ▸ rfl)
  · intro e he
    simp only [List.mem_cons, List.not_mem_nil, or_false] at he
    rcases he with rfl | rfl | rfl | rfl | rfl | rfl
    · exact .inl rfl
    all_goals exact .inr (ratio_bounds List.countP_le_length)

/-- What the sums are once every case has met the standard. -/
structure Flawless (current : List (String × Json)) : Prop where
  schema : dictGet current "schema_ok_ratio" = .float 1
  invented : dictGet current "invented_ratio" = .float 0
  rules : dictGet current "rule_clean_ratio" = .float 1 ∨ dictGet current "rule_clean_ratio" = .null
  route : dictGet current "route_ok_ratio" = .float 1
  timeline : dictGet current "timeline_ok_ratio" = .float 1 ∨
    dictGet current "timeline_ok_ratio" = .null
  others : ∀ axis, axis ∉ ["cases", "schema_ok_ratio", "invented_ratio", "rule_clean_ratio",
    "route_ok_ratio", "timeline_ok_ratio"] → dictGet current axis = .null

/-- A score as `score_case` gives it. -/
structure CaseScore.Sensible (s : CaseScore) : Prop where
  known : s.grounded.known = true
  invented : s.grounded.invented = !s.grounded.grounded
  present : ∀ route, s.route = some route → route.ok = true → route.present = true

/-- Scoring the places always finds out whether any was invented. -/
theorem scoreGrounded_known {payload training : Json} {score : GroundedScore}
    (h : scoreGrounded payload training = .ok score) :
    score.known = true ∧ score.invented = !score.grounded := by
  unfold scoreGrounded at h
  split at h
  · -- there are places to look at
    obtain ⟨places, -, h⟩ := bind_eq_ok.mp h
    obtain ⟨sourced, -, h⟩ := bind_eq_ok.mp h
    obtain ⟨admits, -, h⟩ := bind_eq_ok.mp h
    cases h
    exact ⟨rfl, rfl⟩
  · cases h
    exact ⟨rfl, rfl⟩

/-- A route that is fine is there. -/
theorem scoreRoute_present {payload : List (String × Json)} {score : RouteScore}
    (h : scoreRoute payload = .ok score) (hok : score.ok = true) : score.present = true := by
  unfold scoreRoute at h
  obtain ⟨places, -, h⟩ := bind_eq_ok.mp h
  obtain ⟨ids, -, h⟩ := bind_eq_ok.mp h
  split at h
  · -- without one it is not fine
    cases h
    exact nomatch hok
  · split at h <;> cases h <;> rfl

/-- The score of a case never calls fine what it did not look at. -/
theorem scoreCase_sensible {case : List (String × Json)} {payload training : Json} {s : CaseScore}
    (h : scoreCase pf case payload training = .ok s) : s.Sensible := by
  unfold scoreCase at h
  obtain ⟨schema, -, h⟩ := bind_eq_ok.mp h
  obtain ⟨grounded, hgrounded, h⟩ := bind_eq_ok.mp h
  obtain ⟨hknown, hinvented⟩ := scoreGrounded_known hgrounded
  split at h
  · -- a message of the right form is judged on every axis
    obtain ⟨_, -, h⟩ := bind_eq_ok.mp h
    obtain ⟨rules, -, h⟩ := bind_eq_ok.mp h
    obtain ⟨route, hroute, h⟩ := bind_eq_ok.mp h
    obtain ⟨_, -, h⟩ := bind_eq_ok.mp h
    obtain ⟨_, -, h⟩ := bind_eq_ok.mp h
    obtain ⟨timeline, -, h⟩ := bind_eq_ok.mp h
    obtain ⟨changed, -, h⟩ := bind_eq_ok.mp h
    cases h
    refine ⟨hknown, hinvented, ?_⟩
    rintro _ ⟨⟩ hok
    cases changed with
    | true => exact nomatch hok
    | false => exact scoreRoute_present hroute hok
  · -- any other message is judged on its places only
    cases h
    exact ⟨hknown, hinvented, nofun⟩

/-- What a score that meets the standard says. -/
theorem meetsStandard_iff {s : CaseScore} : s.meetsStandard = true ↔ s.schema.isOk = true ∧
    s.grounded.grounded = true ∧ (∃ route, s.route = some route ∧ route.ok = true) ∧
    (∀ rules, s.rules = some rules → rules.violations = 0) ∧
    ∀ timeline, s.timeline = some timeline → timeline.applicable = true → timeline.ok = true := by
  have hunless : ∀ a b : Bool, (!a || b) = true ↔ (a = true → b = true) := by decide
  unfold CaseScore.meetsStandard
  cases s.route <;> cases s.rules <;> cases s.timeline <;> simp [and_assoc, -Bool.or_eq_true, hunless]

/-- Scores that meet the standard sum up to a flawless summary. -/
theorem flawless_summarize {scored : List CaseScore} (hne : scored ≠ [])
    (hsensible : ∀ s ∈ scored, s.Sensible) (h : ∀ s ∈ scored, s.meetsStandard = true) :
    Flawless (CaseScore.summarize scored) := by
  have hparts := fun s hs => meetsStandard_iff.mp (h s hs)
  have hempty : scored.isEmpty = false := by simpa using hne
  have hlength : scored.length ≠ 0 := by simpa using hne
  -- every score counts for the places and the route
  have hknown : (scored.map (·.grounded)).filter (·.known) = scored.map (·.grounded) :=
    List.filter_eq_self.mpr (List.forall_mem_map.mpr fun s hs => (hsensible s hs).known)
  have hinvented : (scored.map (·.grounded)).countP (·.invented) = 0 := by
    rw [List.countP_eq_zero]
    refine List.forall_mem_map.mpr fun s hs => ?_
    rw [(hsensible s hs).invented, (hparts s hs).2.1]
    decide
  -- a route counts where there is one, and there it is fine
  have hroutes : ∀ r ∈ (scored.filterMap (·.route)).filter (·.present), r.ok = true := by
    intro r hr
    obtain ⟨s, hs, hroute⟩ := List.mem_filterMap.mp (List.mem_of_mem_filter hr)
    obtain ⟨route, hroute', hok⟩ := (hparts s hs).2.2.1
    rwa [Option.some.inj (hroute.symm.trans hroute')]
  have hroutesNe : ((scored.filterMap (·.route)).filter (·.present)).length ≠ 0 := by
    obtain ⟨s, hs⟩ := List.exists_mem_of_ne_nil _ hne
    obtain ⟨route, hroute, hok⟩ := (hparts s hs).2.2.1
    have hmem : route ∈ (scored.filterMap (·.route)).filter (·.present) :=
      List.mem_filter.mpr ⟨List.mem_filterMap.mpr ⟨s, hs, hroute⟩,
        (hsensible s hs).present route hroute hok⟩
    exact (List.length_pos_of_mem hmem).ne'
  -- no rule was broken
  have hrules : ∀ r ∈ scored.filterMap (·.rules), (r.violations == 0) = true := by
    intro r hr
    obtain ⟨s, hs, hr⟩ := List.mem_filterMap.mp hr
    rw [(hparts s hs).2.2.2.1 r hr]
    rfl
  have htimelines : ∀ t ∈ (scored.filterMap (·.timeline)).filter (·.applicable), t.ok = true := by
    intro t ht
    obtain ⟨ht, happlicable⟩ := List.mem_filter.mp ht
    obtain ⟨s, hs, ht⟩ := List.mem_filterMap.mp ht
    exact (hparts s hs).2.2.2.2 t ht happlicable
  unfold CaseScore.summarize
  dsimp only
  rw [hempty, hknown, hinvented, List.length_map]
  constructor
  · change ratio _ _ = _
    rw [List.countP_eq_length.mpr fun s hs => (hparts s hs).1]
    exact ratio_self hlength
  · exact ratio_zero hlength
  · exact ratio_all hrules
  · change ratio _ _ = _
    rw [List.countP_eq_length.mpr hroutes]
    exact ratio_self hroutesNe
  · exact ratio_all htimelines
  · -- there are no other axes
    intro axis haxis
    simp only [List.mem_cons, List.not_mem_nil, or_false, not_or] at haxis
    obtain ⟨h₁, h₂, h₃, h₄, h₅, h₆⟩ := haxis
    simp [dictGet, List.lookup_cons, beq_false_of_ne h₁, beq_false_of_ne h₂, beq_false_of_ne h₃,
      beq_false_of_ne h₄, beq_false_of_ne h₅, beq_false_of_ne h₆]

/-! ### compare -/

/-- What is left to report of an axis: that the baseline has it and the summary has
    not. -/
def unmeasuredAxis (pf : Platform) (current : List (String × Json)) (axis : String) (base : Json) :
    Option String :=
  if axis = "cases" then none
  else
    match base, dictGet current axis with
    | .null, _ => none
    | base, .null => some (unmeasuredText pf axis base)
    | _, _ => none

/-- The axes the baseline has and this run has not. -/
def unmeasured (pf : Platform) (current baseline : List (String × Json)) : List String :=
  baseline.filterMap fun e => unmeasuredAxis pf current e.1 e.2

/-- What is no more than nothing is within any tolerance. -/
theorem not_tolerance_lt {tolerance : PyFloat} (htol : ¬ tolerance < 0) {q : ℚ} (hq : q ≤ 0) :
    ¬ tolerance < .fin q := by
  cases tolerance with
  | fin t =>
    have ht : ¬ t < 0 := fun h => htol ((PyFloat.fin_lt_fin t 0).mpr h)
    rw [PyFloat.fin_lt_fin]
    exact fun h => ht (h.trans_le hq)
  | inf => exact nofun
  | ninf => exact absurd rfl htol
  | nan => exact nofun

/-- A summary has every axis it has. -/
theorem unmeasured_self (scored : List CaseScore) :
    unmeasured pf (CaseScore.summarize scored) (CaseScore.summarize scored) = [] := by
  -- each axis is found again under its name
  have hself : ∀ e ∈ CaseScore.summarize scored,
      dictGet (CaseScore.summarize scored) e.1 = e.2 := by
    unfold CaseScore.summarize
    split
    · exact List.forall_mem_singleton.mpr rfl
    · simp only [List.forall_mem_cons]
      exact ⟨rfl, rfl, rfl, rfl, rfl, rfl, nofun⟩
  refine List.filterMap_eq_nil_iff.mpr fun e he => ?_
  unfold unmeasuredAxis
  rw [hself e he]
  split
  · rfl
  · cases e.2 <;> rfl

/-- Against a flawless summary no axis got worse. -/
theorem compareAxis_flawless {current : List (String × Json)} (h : Flawless current)
    {tolerance : PyFloat} (htol : ¬ tolerance < 0) {axis : String} {base : Json}
    (hbase : axis = "cases" ∨ IsAxis base) :
    compareAxis pf current tolerance axis base = .ok (unmeasuredAxis pf current axis base) := by
  unfold compareAxis unmeasuredAxis
  by_cases hcases : axis = "cases"
  · rw [if_pos hcases, if_pos hcases]
  rw [if_neg hcases, if_neg hcases]
  obtain rfl | ⟨b, rfl, hzero, hone⟩ := hbase.resolve_left hcases
  · rfl
  -- the axis was not measured, or it is at its best
  have hnow : dictGet current axis = .null ∨
      (axis ∉ lowerIsBetter ∧ dictGet current axis = .float 1) ∨
      (axis ∈ lowerIsBetter ∧ dictGet current axis = .float 0) := by
    by_cases hother : axis ∈ ["cases", "schema_ok_ratio", "invented_ratio", "rule_clean_ratio",
        "route_ok_ratio", "timeline_ok_ratio"]
    · simp only [List.mem_cons, List.not_mem_nil, or_false] at hother
      rcases hother with rfl | rfl | rfl | rfl | rfl | rfl
      · -- the count is no axis
        exact absurd rfl hcases
      · exact .inr (.inl ⟨by decide, h.schema⟩)
      · exact .inr (.inr ⟨by decide, h.invented⟩)
      · exact h.rules.elim (fun h => .inr (.inl ⟨by decide, h⟩)) .inl
      · exact .inr (.inl ⟨by decide, h.route⟩)
      · exact h.timeline.elim (fun h => .inr (.inl ⟨by decide, h⟩)) .inl
    · exact .inl (h.others axis hother)
  rcases hnow with hnow | ⟨hhigher, hnow⟩ | ⟨hlower, hnow⟩
  · -- not measured now
    rw [hnow]
  · -- the more the better, and it is 1
    rw [hnow]
    dsimp only
    rw [if_neg hhigher]
    have hworse : pySub (.float (.fin b)) (.float 1) = .ok (.fin (b + -1)) := rfl
    rw [bind_of_eq_ok hworse, if_neg (not_tolerance_lt htol (by linarith))]
    rfl
  · -- the less the better, and it is 0
    rw [hnow]
    dsimp only
    rw [if_pos hlower]
    have hworse : pySub (.float 0) (.float (.fin b)) = .ok (.fin (0 + -b)) := rfl
    rw [bind_of_eq_ok hworse, if_neg (not_tolerance_lt htol (by linarith))]
    rfl

/-- Against flawless sums nothing but what was not measured is noted. -/
theorem compare_flawless {current : List (String × Json)} (h : Flawless current)
    {tolerance : PyFloat} (htol : ¬ tolerance < 0) (old : List CaseScore) :
    compare pf current (CaseScore.summarize old) tolerance =
      .ok (unmeasured pf current (CaseScore.summarize old)) := by
  have hfound : (CaseScore.summarize old).mapM (fun e =>
      compareAxis pf current tolerance e.1 e.2) =
      .ok ((CaseScore.summarize old).map fun e => unmeasuredAxis pf current e.1 e.2) :=
    mapM_eq_ok.mpr (List.forall₂_map_right_iff.mpr (List.forall₂_same.mpr fun e he =>
      compareAxis_flawless h htol (summarize_axes e he)))
  refine (bind_of_eq_ok hfound _).trans ?_
  rw [List.filterMap_map]
  rfl

/-! ### The run -/

/-- What a run has found when it comes to the baseline. -/
structure Scored (pf : Platform) (args : EvalArgs) (scored : List CaseScore) : Prop where
  judged : ∃ judged, args.cases.mapM (judgeCase pf args) = .ok judged ∧
    judged.filterMap (·.getLeft?) = [] ∧ scored = judged.filterMap (·.getRight?)
  cases_ne : args.cases ≠ []
  scored_ne : scored ≠ []
  standard : ∀ s ∈ scored, s.meetsStandard = true

/-- A run that writes a baseline has come that far. -/
theorem evalMain_wrote {args : EvalArgs} {current : List (String × Json)}
    (h : evalMain pf args = .ok (.wrote current)) :
    ∃ scored, Scored pf args scored ∧ current = CaseScore.summarize scored := by
  unfold evalMain at h
  split at h
  · -- there are no cases
    exact nomatch Except.ok.inj h
  rename_i hcases
  obtain ⟨judged, hjudged, h⟩ := bind_eq_ok.mp h
  dsimp only at h
  split at h
  · -- a message is missing
    obtain ⟨_, -, h⟩ := bind_eq_ok.mp h
    exact nomatch Except.ok.inj h
  rename_i hmissing
  split at h
  · -- a case is below standard
    obtain ⟨_, -, h⟩ := bind_eq_ok.mp h
    exact nomatch Except.ok.inj h
  rename_i hfailed
  rw [Bool.or_eq_true, not_or, Bool.not_eq_true', Bool.not_eq_false] at hfailed
  refine ⟨judged.filterMap (·.getRight?), ⟨⟨judged, hjudged, by simpa using hmissing, rfl⟩,
    by simpa using hcases, by simpa using hfailed.2, fun s hs => ?_⟩, ?_⟩
  · have hnone := List.isEmpty_iff.mp hfailed.1
    rw [List.map_eq_nil_iff, List.filter_eq_nil_iff] at hnone
    simpa using hnone s hs
  · -- past the standard, a baseline is written or compared with
    split at h
    · exact nomatch Except.ok.inj h
    split at h
    · cases h
      rfl
    split at h
    · exact nomatch Except.ok.inj h
    · obtain ⟨_, -, h⟩ := bind_eq_ok.mp h
      split at h <;> exact nomatch Except.ok.inj h
    · exact nomatch h

/-- Every score of a run is that of a case. -/
theorem Scored.sensible {args : EvalArgs} {scored : List CaseScore} (h : Scored pf args scored) :
    ∀ s ∈ scored, s.Sensible := by
  obtain ⟨judged, hjudged, -, rfl⟩ := h.judged
  intro s hs
  obtain ⟨outcome, houtcome, hright⟩ := List.mem_filterMap.mp hs
  obtain ⟨case, -, hcase⟩ := exists_of_mem_right (mapM_eq_ok.mp hjudged) houtcome
  unfold judgeCase at hcase
  obtain ⟨cid, -, hcase⟩ := bind_eq_ok.mp hcase
  dsimp only at hcase
  split at hcase
  · -- the message is missing
    cases hcase
    exact nomatch hright
  · -- a message was scored
    obtain ⟨score, hscore, hcase⟩ := bind_eq_ok.mp hcase
    cases hcase
    cases hright
    exact scoreCase_sensible hscore
  · exact nomatch hcase

/-- A run that has come that far compares its sums. -/
theorem evalMain_compare {args : EvalArgs} {scored : List CaseScore} (h : Scored pf args scored)
    {baseline : List (String × Json)} (hbaseline : args.baseline = some (.obj baseline))
    (hwrite : args.writeBaseline = false) {regressions : List String}
    (hcompare : compare pf (CaseScore.summarize scored) baseline args.tolerance = .ok regressions) :
    evalMain pf args = .ok (if regressions.isEmpty then .passed else .regressed regressions) := by
  obtain ⟨judged, hjudged, hmissing, rfl⟩ := h.judged
  have hfailed : ((judged.filterMap (·.getRight?)).filter fun s => !s.meetsStandard) = [] :=
    List.filter_eq_nil_iff.mpr fun s hs => by simp [h.standard s hs]
  have hscored : (judged.filterMap (·.getRight?)).isEmpty = false := by simpa using h.scored_ne
  unfold evalMain
  -- nothing stops before the comparison
  rw [if_neg (by simpa using h.cases_ne), bind_of_eq_ok hjudged]
  dsimp only
  rw [hmissing, hfailed, hscored, hbaseline, hwrite]
  exact bind_of_eq_ok hcompare _

/-- Of a run that could write its sums as a baseline, all axes are at their best, and
    against the sums of any earlier scores it only reports the axes it did not
    measure, for any tolerance that is not negative; against its own it passes. -/
theorem regressions_unmeasured (pf : Platform) (args : EvalArgs) (old : List CaseScore)
    {current : List (String × Json)} (htol : ¬ args.tolerance < 0)
    (hwrite : evalMain pf { args with baseline := some .null, writeBaseline := true } =
      .ok (.wrote current)) :
    Flawless current ∧
    evalMain pf { args with
        baseline := some (.obj (CaseScore.summarize old)), writeBaseline := false } =
      .ok (if (unmeasured pf current (CaseScore.summarize old)).isEmpty then .passed
        else .regressed (unmeasured pf current (CaseScore.summarize old))) ∧
    evalMain pf { args with baseline := some (.obj current), writeBaseline := false } =
      .ok .passed := by
  obtain ⟨scored, hscored, rfl⟩ := evalMain_wrote hwrite
  have hflawless := flawless_summarize hscored.scored_ne hscored.sensible hscored.standard
  -- what was scored does not depend on the baseline
  have hagain : ∀ baseline, Scored pf { args with
      baseline := some (.obj baseline), writeBaseline := false } scored := fun _ =>
    ⟨hscored.judged, hscored.cases_ne, hscored.scored_ne, hscored.standard⟩
  have hrun := fun old => evalMain_compare (hagain (CaseScore.summarize old)) rfl rfl
    (compare_flawless hflawless htol old)
  refine ⟨hflawless, hrun old, (hrun scored).trans ?_⟩
  rw [unmeasured_self]
  rfl

/-- A place the judge finds nothing wrong with. -/
def foundSpot (pid : Int) : Json :=
  .obj [("place_id", .int pid), ("day", .int 1), ("name", .str "a"), ("lat", .float 37),
    ("lng", .float 127), ("content_id", .str "c"), ("source", .str "kakao"),
    ("grounded", .bool true)]

/-- One case, and one message of two places. -/
def oneCaseArgs : EvalArgs where
  cases := [.obj [("id", .str "a")]]
  results name := if name = "a.json" then .obj [("status", .str "done"),
    ("places", .arr [foundSpot 0, foundSpot 1]), ("visit_order", .arr [.int 0, .int 1]),
    ("legs", .arr [.obj [("from", .int 0), ("to", .int 1)]])] else .null
  training := none
  baseline := none
  tolerance := 0
  writeBaseline := false

/-- An earlier score, of a case that set a radius. -/
def earlierScore : CaseScore where
  caseId := .str "a"
  schema := .ok 2
  grounded := ⟨true, true, false⟩
  rules := some ⟨.int 5, 0, []⟩
  route := some ⟨true, true, some [], none⟩

/-- Against it, the one case is as good as it can be, but sets no radius. -/
theorem regressions_unmeasured_sample : ∃ current,
    evalMain samplePlatform { oneCaseArgs with baseline := some .null, writeBaseline := true } =
      .ok (.wrote current) ∧ Flawless current ∧
    evalMain samplePlatform { oneCaseArgs with
        baseline := some (.obj (CaseScore.summarize [earlierScore])), writeBaseline := false } =
      .ok (.regressed [unmeasuredText samplePlatform "rule_clean_ratio" (.float 1)]) := by
  obtain ⟨hflawless, hrun, -⟩ :=
    regressions_unmeasured samplePlatform oneCaseArgs [earlierScore] (by decide) rfl
  exact ⟨_, rfl, hflawless, hrun⟩

end MapServiceAgent.Native

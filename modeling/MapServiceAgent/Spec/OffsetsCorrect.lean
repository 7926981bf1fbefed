import MapServiceAgent.Spec.AgentGraphCorrect

/-!
# Times that carry an offset

`parse_input` compares the two times as Python does, in UTC, while the nodes
after it compute with hours and minutes alone. The two agree when the times
carry the same offset or none.

## Key results

- `parseInput_safe_iff`: the requests that `parse_input` refuses or lets through
  with what later nodes rely on
- `timesAgree_of_same_offset`: times with one offset are always among them
- `offset_escapes`: a request that raises, and one that gets through inverted
-/

namespace MapServiceAgent.Native

variable {req : AgentRequest}

/-! ### Comparing times -/

/-- The moment of day in UTC; a time without an offset counts as UTC. -/
def Time.utcMicros (t : Time) : Int := t.micros - t.utcoffset.getD 0 * 1000000

/-- One time carries an offset and the other does not. -/
def mixedOffsets (d : DateRange) : Prop :=
  d.timeStart.utcoffset.isSome ≠ d.timeEnd.utcoffset.isSome

/-- Two times can be compared when both carry an offset or neither does. -/
theorem ge?_eq (a b : Time) :
    a.ge? b = if a.utcoffset.isSome = b.utcoffset.isSome then some (decide (b.utcMicros ≤ a.utcMicros))
      else none := by
  rcases a with ⟨_, _, _, _, _ | x, _⟩ <;> rcases b with ⟨_, _, _, _, _ | y, _⟩ <;>
    simp [Time.ge?, Time.utcMicros, Time.micros]

/-- Minutes of the day follow the moments of the day. -/
theorem minuteOfDay_le_of_micros_le {a b : Time} (h : a.micros ≤ b.micros) :
    a.minuteOfDay ≤ b.minuteOfDay := by
  have := a.second_lt
  have := b.second_lt
  have := a.microsecond_lt
  have := b.microsecond_lt
  simp only [Time.micros, Time.minuteOfDay] at h ⊢
  omega

/-! ### What later nodes rely on -/

/-- What the nodes after `parse_input` compute with. -/
structure Dependable (req : AgentRequest) : Prop where
  one_le_days : 1 ≤ numDays req
  days_le : numDays req ≤ 15
  start_le_end : req.date.timeStart.minuteOfDay ≤ req.date.timeEnd.minuteOfDay
  day_mem : ∀ p ∈ req.given, 1 ≤ p.day ∧ p.day ≤ numDays req
  route_two : req.stage = .route → 2 ≤ req.given.length
  route_order : req.stage = .route → (req.given.map (·.day)).Pairwise (· ≤ ·)

/-- The dates alone refuse the request. -/
def datesRefused (d : DateRange) : Prop := d.spanDays < 0 ∨ maxRangeDays < d.spanDays

/-- The list of places alone refuses the request. -/
def placesRefused (req : AgentRequest) : Prop :=
  (∃ p ∈ req.given, numDays req < p.day) ∨
    req.stage = .route ∧
      (¬ (req.given.map (·.day)).Pairwise (· ≤ ·) ∨ req.given.length < 2)

/-- Hours and minutes show the times in the order the comparison saw. -/
def timesAgree (d : DateRange) : Prop :=
  ¬ mixedOffsets d ∧
    (d.timeStart.utcMicros < d.timeEnd.utcMicros → d.timeStart.minuteOfDay ≤ d.timeEnd.minuteOfDay)

/-- Times with one offset are in one order, by the clock and by the instant. -/
theorem timesAgree_of_same_offset {d : DateRange}
    (h : d.timeStart.utcoffset = d.timeEnd.utcoffset) : timesAgree d := by
  constructor
  · simp [mixedOffsets, h]
  · intro hlt
    apply minuteOfDay_le_of_micros_le
    simp only [Time.utcMicros, h] at hlt
    omega

/-! ### parse_input -/

/-- Days are what they are sorted when they are in order. -/
theorem sortedBy_id_eq_iff (days : List Int) :
    days = sortedBy id days ↔ days.Pairwise (· ≤ ·) := by
  constructor
  · intro h
    rw [h]
    exact sortedBy_pairwise id days
  · intro h
    -- a sorted list is sorted to itself
    have hsorted : days.Pairwise fun a b => ¬ id b < id a := h.imp fun hab => not_lt.mpr hab
    exact hsorted.insertionSort_eq.symm

/-- The places of a request that the node lets through. -/
theorem not_placesRefused_iff :
    ¬ placesRefused req ↔ (∀ p ∈ req.given, p.day ≤ numDays req) ∧
      (req.stage = .route →
        (req.given.map (·.day)).Pairwise (· ≤ ·) ∧ 2 ≤ req.given.length) := by
  simp only [placesRefused, not_or, not_exists, not_and, not_lt, not_not]

/-- A request is failed with `invalid_request`. -/
def Refused (s : AgentState) : Prop := s.failed = true ∧ s.code = some "invalid_request"

/-- A refusal leaves the state failed with the code of bad requests. -/
theorem refused_fail (s : AgentState) {message : String} (h : message ≠ "") :
    Refused (s.fail message "invalid_request") := by
  simp [Refused, AgentState.fail, AgentState.failed, h]

/-- The ways the node ends, and what leads to each. -/
inductive Parsed (jobId : String) (req : AgentRequest) : Except PyExn AgentState → Prop where
  | refused {s' : AgentState} : Refused s' →
      datesRefused req.date ∨ ¬ mixedOffsets req.date ∧
        (req.date.timeEnd.utcMicros ≤ req.date.timeStart.utcMicros ∨ placesRefused req) →
      Parsed jobId req (.ok s')
  | raised : ¬ datesRefused req.date → mixedOffsets req.date → Parsed jobId req (.error .typeError)
  | passed : ¬ datesRefused req.date → ¬ mixedOffsets req.date →
      req.date.timeStart.utcMicros < req.date.timeEnd.utcMicros → ¬ placesRefused req →
      Parsed jobId req (.ok (Job.start jobId req).state)

/-- The first node refuses, raises or passes as `Parsed` says. -/
theorem parseInput_parsed (jobId : String) (req : AgentRequest) :
    Parsed jobId req (parseInput (Job.start jobId req).state) := by
  have hreq : (Job.start jobId req).state.request = req := rfl
  simp only [parseInput, hreq, ge?_eq, sortedBy_id_eq_iff, ne_eq]
  by_cases hdates : datesRefused req.date
  · -- the dates are looked at first
    rcases hdates with hneg | hlong
    · rw [if_pos hneg]
      exact .refused (refused_fail _ (by decide)) (.inl (.inl hneg))
    · rw [if_neg (by have : (0 : Int) ≤ maxRangeDays := by decide
                     omega), if_pos hlong]
      exact .refused (refused_fail _ (by decide)) (.inl (.inr hlong))
  obtain ⟨hpos, hshort⟩ := not_or.mp hdates
  rw [if_neg hpos, if_neg hshort]
  by_cases hmixed : mixedOffsets req.date
  · rw [if_neg hmixed]
    exact .raised hdates hmixed
  -- from here on the times can be compared
  rw [if_pos (not_not.mp hmixed)]
  have hrefused : req.date.timeEnd.utcMicros ≤ req.date.timeStart.utcMicros ∨ placesRefused req →
      ∀ message, message ≠ "" →
      Parsed jobId req (.ok ((Job.start jobId req).state.fail message "invalid_request")) :=
    fun h message hne => .refused (refused_fail _ hne) (.inr ⟨hmixed, h⟩)
  -- the start has to come before the end
  by_cases htimes : req.date.timeEnd.utcMicros ≤ req.date.timeStart.utcMicros
  · rw [decide_eq_true htimes]
    exact hrefused (.inl htimes) _ (by decide)
  rw [decide_eq_false htimes]
  dsimp only
  have hany : ((req.given.map (·.day)).any fun d => numDays req < d) = true ↔
      ∃ p ∈ req.given, numDays req < p.day := by simp
  split
  · -- a place after the last day
    rename_i hday
    exact hrefused (.inr (.inl (hany.mp hday))) _ (by decide)
  rename_i hday
  split
  · -- a route out of order
    rename_i horder
    exact hrefused (.inr (.inr ⟨horder.1, .inl horder.2⟩)) _ (by decide)
  rename_i horder
  split
  · -- a route without places
    rename_i hnil
    refine hrefused (.inr (.inr ⟨hnil.1, .inr ?_⟩)) _ (by decide)
    simp [List.map_eq_nil_iff.mp hnil.2]
  split
  · -- a route of one place
    rename_i htwo
    exact hrefused (.inr (.inr ⟨htwo.1, .inr (by simpa using htwo.2)⟩)) _ (by decide)
  rename_i htwo
  -- nothing is left to refuse
  refine .passed hdates hmixed (not_le.mp htimes) ?_
  rintro (hplaces | ⟨hstage, hplaces | hplaces⟩)
  · exact hday (hany.mpr hplaces)
  · exact horder ⟨hstage, hplaces⟩
  · exact htwo ⟨hstage, by simpa using hplaces⟩

/-- `parse_input` returns, and refuses the request or lets it through with what
    later nodes rely on, exactly when the dates already refuse it or the times
    both carry an offset or neither does and either the places refuse it or hours
    and minutes show the times in the order of the comparison. -/
theorem parseInput_safe_iff (jobId : String) (req : AgentRequest) :
    (∃ s', parseInput (Job.start jobId req).state = .ok s' ∧
      (Refused s' ∨ s'.failed = false ∧ Dependable req)) ↔
    datesRefused req.date ∨ ¬ mixedOffsets req.date ∧ placesRefused req ∨ timesAgree req.date := by
  have hparsed := parseInput_parsed jobId req
  have hnot : ¬ Refused (Job.start jobId req).state := fun h => by cases h.1
  generalize parseInput (Job.start jobId req).state = out at hparsed ⊢
  cases hparsed with
  | @refused s' hs' hwhy =>
    refine iff_of_true ⟨s', rfl, .inl hs'⟩ ?_
    rcases hwhy with hdates | ⟨hmixed, htimes | hplaces⟩
    · exact .inl hdates
    · exact .inr (.inr ⟨hmixed, fun hlt => absurd hlt (not_lt.mpr htimes)⟩)
    · exact .inr (.inl ⟨hmixed, hplaces⟩)
  | raised hdates hmixed =>
    -- comparing the times raised, which is no refusal
    apply iff_of_false
    · rintro ⟨s', hs', -⟩
      cases hs'
    · rintro (h | ⟨h, -⟩ | ⟨h, -⟩)
      · exact hdates h
      · exact h hmixed
      · exact h hmixed
  | passed hdates hmixed htimes hplaces =>
    obtain ⟨hneg, hlong⟩ := not_or.mp hdates
    obtain ⟨hdays, hroute⟩ := not_placesRefused_iff.mp hplaces
    constructor
    · -- what passed is safe only if the minutes of the day agree with the instants
      rintro ⟨s', hs', hsafe⟩
      cases hs'
      obtain ⟨-, hdep⟩ := hsafe.resolve_left hnot
      exact .inr (.inr ⟨hmixed, fun _ => hdep.start_le_end⟩)
    · intro h
      have hagree := (h.resolve_left hdates).resolve_left fun h => hplaces h.2
      have hminutes := hagree.2 htimes
      refine ⟨_, rfl, .inr ⟨rfl, ?_, ?_, hminutes, fun p hp => ⟨p.one_le_day, hdays p hp⟩,
        fun hstage => (hroute hstage).2, fun hstage => (hroute hstage).1⟩⟩
      · unfold numDays
        omega
      · unfold maxRangeDays at hlong
        unfold numDays
        omega

/-! ### Requests that get past -/

/-- From nine in the morning without an offset to eight at night in Seoul. -/
def mixedTrip : AgentRequest :=
  { sampleTrip .init with date :=
    { sampleDates with timeEnd := { sampleDates.timeEnd with utcoffset := some 32400 } } }

/-- From eight at night in Seoul to noon in London, which is an hour later. -/
def eastToWestTrip : AgentRequest :=
  { sampleTrip .init with date :=
    { sampleDates with
      timeStart := { sampleDates.timeEnd with utcoffset := some 32400 }
      timeEnd := { sampleDates.timeStart with hour := 12, utcoffset := some 0, hour_lt := by decide } } }

/-- The first raises, and the second gets through with its window inverted. -/
theorem offset_escapes :
    parseInput (Job.start "j" mixedTrip).state = .error .typeError ∧
    (∃ s', parseInput (Job.start "j" eastToWestTrip).state = .ok s' ∧ s'.failed = false ∧
      eastToWestTrip.date.timeEnd.minuteOfDay < eastToWestTrip.date.timeStart.minuteOfDay) :=
  ⟨rfl, _, rfl, rfl, by decide⟩

end MapServiceAgent.Native

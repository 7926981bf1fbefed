import MapServiceAgent.Spec.ItineraryCorrect
import MapServiceAgent.Spec.PlannerCorrect
import MapServiceAgent.Spec.ScorerCorrect

/-!
# Published times

Where a message says that its times are good, they are the planner's for the
very places, order and legs it publishes, no day runs over, and the judge of the
offline evaluation agrees.

## Key results

- `buildTimeline_ok`: the times a job gets first
- `DoneRun.planned`: the times of a job that publishes them as good
- `timeline_judged`: the judge finds nothing wrong with them
-/

namespace MapServiceAgent.Native

variable {pf : Platform} {env : Env} {jobId : String} {req : AgentRequest} {s s' : AgentState}

/-! ### Stays -/

/-- What the hub is trusted with: where it estimates a stay, it gives a number
    of minutes, of any size. -/
def DwellMinutes (hub : Hub) : Prop :=
  ∀ places resp byKey, hub.estimateDwell places = .ok resp → estimatesByKey resp = .ok byKey →
    ∀ e ∈ byKey, dictGet e.2 "stay_minutes" = .null ∨
      ∃ m : Int, 0 ≤ m ∧ dictGet e.2 "stay_minutes" = .int m

/-- A stay read from estimates without a negative one is not negative. -/
theorem dwellOf_nonneg {byKey : List (PyKey × List (String × Json))} {p : Place} {d : Dwell}
    (hbyKey : ∀ e ∈ byKey, dictGet e.2 "stay_minutes" = .null ∨
      ∃ m : Int, 0 ≤ m ∧ dictGet e.2 "stay_minutes" = .int m)
    (h : dwellOf pf byKey p = .ok d) : 0 ≤ d.stayMinutes := by
  unfold dwellOf at h
  dsimp only at h
  obtain ⟨stay, hstay, h⟩ := bind_eq_ok.mp h
  cases h
  -- no estimate, no stay
  have hzero : ∀ stay, pyInt pf ((Json.null).orElse (.int 0)) = .ok stay → 0 ≤ stay := by
    rintro _ ⟨⟩
    exact le_rfl
  cases hfound : keyedBy (·.1) byKey (.str (dwellKey p)) with
  | none =>
    rw [hfound] at hstay
    exact hzero _ hstay
  | some e =>
    rw [hfound, Option.map_some, Option.getD_some] at hstay
    -- an estimate without minutes counts as 0
    rcases hbyKey e (keyedBy_some hfound).1 with hnull | ⟨m, hm, hint⟩
    · rw [hnull] at hstay
      exact hzero _ hstay
    · rw [hint, Json.orElse] at hstay
      split at hstay <;> cases hstay
      · exact hm
      · exact le_rfl

/-- So no place gets a negative stay. -/
theorem stayOf_nonneg {places : List Place} {resp : Json} {dwells : List Dwell}
    (hhub : ∀ byKey, estimatesByKey resp = .ok byKey → ∀ e ∈ byKey,
      dictGet e.2 "stay_minutes" = .null ∨
        ∃ m : Int, 0 ≤ m ∧ dictGet e.2 "stay_minutes" = .int m)
    (h : dwellEstimates pf places resp = .ok dwells) (pid : Int) : 0 ≤ stayOf dwells pid := by
  obtain ⟨byKey, hbyKey, h⟩ := bind_eq_ok.mp h
  unfold stayOf
  cases hfound : keyedBy (·.placeId) dwells pid with
  | none => exact le_rfl
  | some d =>
    -- each stay is read from the estimate of its place
    obtain ⟨p, -, hp⟩ := exists_of_mem_right (mapM_eq_ok.mp h) (keyedBy_some hfound).1
    exact dwellOf_nonneg (hhub byKey hbyKey) hp

/-- Trimming a day only cuts stays down to the floor. -/
theorem floorStays_nonneg {dayOrder : List Int} {stay : Int → Int} (h : ∀ pid, 0 ≤ stay pid)
    (pid : Int) : 0 ≤ floorStays dayOrder stay pid := by
  unfold floorStays
  split
  · decide
  · exact h pid

/-- Trimming a day leaves no negative stay. -/
theorem trimDay_nonneg {order dayOrder dropped dropped' : List Int} {day : Int} {rounds : Nat}
    {stay stay' : Int → Int} (hstay : ∀ pid, 0 ≤ stay pid)
    (h : trimDay env s order day rounds dayOrder stay dropped = .ok (stay', dropped')) :
    ∀ pid, 0 ≤ stay' pid := by
  induction rounds generalizing dayOrder stay dropped with
  | zero =>
    cases h
    exact hstay
  | succ rounds ih =>
    rw [trimDay] at h
    -- each round only lowers stays to their floor
    obtain ⟨trial, -, h⟩ := bind_eq_ok.mp h
    split at h
    · cases h
      exact floorStays_nonneg hstay
    · split at h
      · cases h
        exact floorStays_nonneg hstay
      · exact ih (floorStays_nonneg hstay) h

/-- Nor does trimming all of them. -/
theorem trimDays_nonneg {order days dropped dropped' : List Int} {stay stay' : Int → Int}
    (hstay : ∀ pid, 0 ≤ stay pid)
    (h : trimDays env s order days stay dropped = .ok (stay', dropped')) :
    ∀ pid, 0 ≤ stay' pid := by
  induction days generalizing stay dropped with
  | nil =>
    cases h
    exact hstay
  | cons day days ih =>
    rw [trimDays] at h
    split at h
    · cases h
    · obtain ⟨⟨stay₁, dropped₁⟩, htrim, h⟩ := bind_eq_ok.mp h
      exact ih (trimDay_nonneg hstay htrim) h

/-! ### Slots -/

/-- A slot with its source is the slot it was, with the source beside it. -/
theorem lookup_withSources (source : Int → String) (timeline : List (Int × Slot)) (pid : Int) :
    (withSources source timeline).lookup pid =
      (timeline.lookup pid).map fun slot => { slot with staySource := some (source pid) } := by
  induction timeline with
  | nil => rfl
  | cons x rest ih =>
    obtain ⟨k, slot⟩ := x
    rw [withSources, List.map_cons, List.lookup_cons, List.lookup_cons]
    by_cases hk : pid = k
    · subst hk
      simp
    · simpa [beq_false_of_ne hk, withSources] using ih

/-- Every stay in the times of a plan is one it was made with. -/
theorem stay_planned_nonneg {settings : Settings} {stay : Int → Int} {source : Int → String}
    (hstay : ∀ pid, 0 ≤ stay pid) (pid : Int) :
    0 ≤ ((withSources source (planTimeline settings s stay).timeline).lookup pid).elim 0
      (·.stayMinutes) := by
  rw [lookup_withSources]
  cases hslot : (planTimeline settings s stay).timeline.lookup pid with
  | none => exact le_rfl
  | some slot =>
    rcases DayPlan.lookup_layOut hslot with h | h
    · exact (hstay pid).trans_eq h.symm
    · exact nomatch h

/-! ### The first times -/

/-- The times a job gets first: none it vouches for, or those of a plan. -/
inductive FirstTimes (env : Env) (s : AgentState) : Prop where
  | none : s.timelineStatus ≠ some .ok → s.timelineStatus ≠ some .trimmed →
      s.timelineOverflowDays = none → FirstTimes env s
  | planned (stay : Int → Int) (source : Int → String) : env.settings.timelineEnabled = true →
      (∀ pid, 0 ≤ stay pid) →
      s.timeline = some (withSources source (planTimeline env.settings s stay).timeline) →
      s.timelineOverflowDays.getD [] = (planTimeline env.settings s stay).overflowed →
      FirstTimes env s

/-- Where no days were noted before, those noted are those of the layout. -/
private theorem getD_overflowed {days : Option (List Int)} (h : days = none) (layout : Layout) :
    (if layout.overflowed = [] then days else some layout.overflowed).getD [] =
      layout.overflowed := by
  split
  · rename_i hfits
    rw [h, hfits, Option.getD_none]
  · rfl

/-- The times a job gets first are none it vouches for, or those of the plan with
    the stays the hub estimates. -/
theorem buildTimeline_cases (h : buildTimeline env s = .ok s')
    (huntimed : s.timelineKeys = (none, none, none)) :
    (s'.timelineStatus ≠ some .ok ∧ s'.timelineStatus ≠ some .trimmed ∧
        s'.timelineOverflowDays = none) ∨
      ∃ resp dwells, env.settings.timelineEnabled = true ∧ s'.timelineStatus = some .ok ∧
        env.hub.estimateDwell (dwellRequest (s.places.getD [])) = .ok resp ∧
        dwellEstimates env.platform (s.places.getD []) resp = .ok dwells ∧
        s'.timeline = some (withSources (staySourceOf dwells)
          (planTimeline env.settings s' (stayOf dwells)).timeline) ∧
        s'.timelineOverflowDays.getD [] =
          (planTimeline env.settings s' (stayOf dwells)).overflowed := by
  obtain ⟨-, hstatus, hover⟩ := by simpa only [Prod.mk.injEq] using huntimed
  -- a node that returns its state leaves no timeline
  have hsame : (.ok s : Except PyExn AgentState) = .ok s' →
      s'.timelineStatus ≠ some .ok ∧ s'.timelineStatus ≠ some .trimmed ∧
        s'.timelineOverflowDays = none := by
    rintro ⟨⟩
    exact ⟨by simp [hstatus], by simp [hstatus], hover⟩
  unfold buildTimeline at h
  rw [timelineWarnings_frame] at h
  dsimp only at h
  split at h
  · exact Or.inl (hsame h)
  split at h
  · exact Or.inl (hsame h)
  rename_i hbuilt
  split at h
  · split at h
    · cases h
      exact Or.inl ⟨by simp, by simp, hover⟩
    · cases h
  · -- the hub answered: the days are laid out
    rename_i resp hresp
    obtain ⟨dwells, hdwells, h⟩ := bind_eq_ok.mp h
    cases h
    refine Or.inr ⟨resp, dwells, Bool.eq_true_of_not_eq_false (mt Or.inl hbuilt), rfl, hresp,
      hdwells, ?_, (getD_overflowed hover _).trans
        (congrArg Layout.overflowed (planTimeline_congr rfl rfl rfl rfl))⟩
    exact congrArg (fun layout : Layout => some (withSources _ layout.timeline))
      (planTimeline_congr rfl rfl rfl rfl)

/-- The node leaves no times, or those of a plan with the hub's stays. -/
theorem buildTimeline_ok (hhub : DwellMinutes env.hub) (h : buildTimeline env s = .ok s')
    (huntimed : s.timelineKeys = (none, none, none)) : FirstTimes env s' := by
  rcases buildTimeline_cases h huntimed with
    ⟨hok, htrimmed, hnone⟩ | ⟨resp, dwells, henabled, -, hresp, hdwells, htimes, hover⟩
  · exact .none hok htrimmed hnone
  · exact .planned (stayOf dwells) (staySourceOf dwells) henabled
      (stayOf_nonneg (fun byKey hbyKey => hhub _ resp byKey hresp hbyKey) hdwells) htimes hover

/-! ### The last times -/

/-- Legs that follow the order are not drawn anew. -/
theorem rebuildLegs_same {places : List Place} {order : List Int} {legs : List Leg}
    (hs : Routed s places order legs) : rebuildLegs pf s order = .ok legs := by
  have hnodup : (legs.map Leg.ends).Nodup :=
    hs.itinerary.legs_ends ▸ nodup_pairs hs.itinerary.order_nodup
  rw [rebuildLegs, ← hs.itinerary.legs_ends, mapM_eq_ok, List.forall₂_map_left_iff,
    List.forall₂_same]
  intro leg hleg
  -- each leg is found under its ends
  have hfound : keyedBy Leg.ends (s.legs.getD []) leg.ends = some leg := by
    rw [hs.legs_eq]
    exact keyedBy_of_mem hnodup hleg
  unfold rebuildLeg
  dsimp only
  rw [show keyedBy (fun leg : Leg => (leg.fromPlaceId, leg.toPlaceId)) (s.legs.getD [])
    leg.ends = some leg from hfound]

/-- An itinerary without the dropped stops is planned as it is. -/
theorem planTimelineWith_routed {stay : Int → Int} {places : List Place} {order dropped : List Int}
    {legs : List Leg} (hs : Routed s places order legs) (hkept : ∀ pid ∈ order, pid ∉ dropped) :
    planTimelineWith env s stay order dropped = .ok (planTimeline env.settings s stay) := by
  have horder : order.filter (· ∉ dropped) = order :=
    List.filter_eq_self.mpr fun pid hpid => decide_eq_true (hkept pid hpid)
  have hplaces : places.filter (fun p => p.placeId ∉ dropped) = places :=
    List.filter_eq_self.mpr fun p hp => decide_eq_true
      (hkept _ (hs.itinerary.order_perm.mem_iff.mpr (List.mem_map_of_mem hp)))
  unfold planTimelineWith probeState
  dsimp only
  rw [horder, rebuildLegs_same hs]
  refine congrArg Except.ok (planTimeline_congr ?_ hs.order_eq.symm hs.legs_eq.symm rfl)
  simp only [hs.places_eq, Option.getD_some, hplaces]

/-- The state's times are those the planner gives to some stays, and no day runs
    over. -/
def Planned (settings : Settings) (s : AgentState) : Prop :=
  ∃ stay source, (∀ pid, 0 ≤ stay pid) ∧ (planTimeline settings s stay).overflowed = [] ∧
    s.timeline = some (withSources source (planTimeline settings s stay).timeline)

/-- Good times are those of a plan, trimmed or not. -/
theorem Fitted.planned {places : List Place} {order : List Int} {legs : List Leg}
    (h : Fitted env s s') (hs : Routed s places order legs) (hfirst : FirstTimes env s)
    (hstatus : s'.timelineStatus = some .ok ∨ s'.timelineStatus = some .trimmed) :
    Planned env.settings s' := by
  cases h with
  | kept hkept =>
    -- the first timeline stands
    cases hfirst with
    | none hok htrimmed _ => exact absurd hstatus (not_or.mpr ⟨hok, htrimmed⟩)
    | planned stay source henabled hstay htimes hover =>
      refine ⟨stay, source, hstay, ?_, htimes⟩
      rcases hkept with hdisabled | hfits
      · exact absurd (henabled.symm.trans hdisabled) (by decide)
      · rw [← hover, hfits]
  | @trimmed stay dropped s₁ layout hrun _ htrim hdrop hlayout hfits =>
    cases hfirst with
    | none _ _ hnone => exact absurd (by rw [hnone]; rfl) hrun
    | planned stay₀ source _ hstay htimes _ =>
      have hfirst : ∀ pid, 0 ≤ ((s.timeline.getD []).lookup pid).elim 0 (·.stayMinutes) := by
        rw [htimes, Option.getD_some]
        exact stay_planned_nonneg hstay
      -- after trimming it was laid out again, with stays that are still none below zero
      have hstay' := trimDays_nonneg hfirst htrim
      obtain ⟨legs', hs₁⟩ := dropPlaces_routed hs hdrop
      rw [hs.order_eq, Option.getD_some] at hlayout
      rw [planTimelineWith_routed hs₁ fun pid hpid =>
        of_decide_eq_true (List.mem_filter.mp hpid).2] at hlayout
      cases hlayout
      exact ⟨stay, oldStaySource s₁, hstay', hfits, rfl⟩

/-- The times of a job that publishes them as good. -/
theorem DoneRun.planned {p : JobDonePayload} (run : DoneRun env jobId req p)
    (hhub : DwellMinutes env.hub)
    (hstatus : run.fitted.timelineStatus = some .ok ∨ run.fitted.timelineStatus = some .trimmed) :
    Planned env.settings run.fitted := by
  obtain ⟨j, hj, hstate⟩ := run.comesTime
  have huntimed := untimed_of_reaches (by decide) hj
  rw [hstate] at huntimed
  obtain ⟨_, _, -, -, -, htimed⟩ := run.timed_routed
  exact (fitTimeBudget_ok run.fit run.fitted_ok).planned htimed
    (buildTimeline_ok hhub run.time huntimed) hstatus

/-! ### The message -/

/-- A place that carries its slot shows its visit. -/
theorem showsVisit_enrich {v : Visit Place} {reason : Option String} {bullets : Option (List String)}
    {source : Option String} :
    ShowsVisit (v.map fun x => x.enrich reason bullets
      (some ⟨v.stay, minutesToHhmm v.start, minutesToHhmm v.stop, source⟩)) :=
  ⟨rfl, rfl, rfl⟩

/-- The visits of a job that publishes its times as good. -/
theorem DoneRun.visits {p : JobDonePayload} (run : DoneRun env jobId req p)
    (hhub : DwellMinutes env.hub)
    (hstatus : p.timelineStatus = some .ok ∨ p.timelineStatus = some .trimmed) :
    ∃ places order legs, p.places = some places ∧ p.visitOrder = some order ∧ p.legs = some legs ∧
      Itinerary places order legs ∧ ∃ visits : List (Visit Place), visits ≠ [] ∧
        (visits.map (·.place)).Perm places ∧ visits.map (·.place.placeId) = order ∧
        (∀ v ∈ visits, ShowsVisit v) ∧
        OnTime (·.day) (fun x _ => legMinutes legs order x.placeId)
          req.date.timeStart.minuteOfDay req.date.timeEnd.minuteOfDay visits := by
  obtain ⟨places, order, legs, hs, -, htwo, -⟩ := run.fitted_itinerary
  obtain ⟨enrich, henrich, hplaces, horder, hlegs, hkept⟩ := run.published hs
  rw [hkept] at hstatus
  obtain ⟨stay, source, hstay, hfits, htimes⟩ := run.planned hhub hstatus
  obtain ⟨visits, hperm, hids, hontime, hslots⟩ := planTimeline_onTime hs hstay hfits
  rw [run.fitted_request] at hontime
  refine ⟨_, _, _, hplaces, horder, hlegs, henrich.itinerary hs.itinerary,
    visits.map (Visit.map enrich), ?_, ?_, ?_, ?_, ?_⟩
  · -- a trip has two places, so there is a visit
    rintro h
    rw [List.map_eq_nil_iff.mp h] at hperm
    rw [← hperm.length_eq] at htwo
    exact absurd htwo (by decide)
  · have h := hperm.map enrich
    rwa [List.map_map] at h ⊢
  · rw [← hids, List.map_map]
    exact List.map_congr_left fun v _ => henrich.placeId v.place
  · -- the slot of a place is written on it with the other texts
    refine List.forall_mem_map.mpr fun v hv => ?_
    obtain ⟨reason, bullets, hx⟩ := henrich v.place
    rw [htimes, Option.getD_some, lookup_withSources, hslots v hv, Option.map_some] at hx
    rw [Visit.map, hx]
    exact showsVisit_enrich
  · exact hontime.map henrich.day fun x _ => by rw [henrich.placeId]

/-- The judge agrees with a message that says its times are good. They are those
    of visits that can be kept, and none of them was cut off at the end of the
    day: every written time reads back as the planner's. -/
theorem timeline_judged {p : JobDonePayload} (hhub : DwellMinutes env.hub)
    (h : p ∈ runJob env jobId req) (hdone : p.status = .done)
    (hstatus : p.timelineStatus = some .ok ∨ p.timelineStatus = some .trimmed) :
    scoreTimeline env.platform p.jsonFields (.str req.date.timeStart.hhmm)
        (.str req.date.timeEnd.hhmm) true = .ok ⟨true, true, []⟩ ∧
    ∃ places order legs, p.places = some places ∧ p.visitOrder = some order ∧
      p.legs = some legs ∧ ∃ visits : List (Visit Place), (visits.map (·.place)).Perm places ∧
        visits.map (·.place.placeId) = order ∧
        (∀ v ∈ visits, ShowsVisit v ∧
          minutes env.platform (.str (minutesToHhmm v.start)) = some v.start ∧
          minutes env.platform (.str (minutesToHhmm v.stop)) = some v.stop) ∧
        OnTime (·.day) (fun x _ => legMinutes legs order x.placeId)
          req.date.timeStart.minuteOfDay req.date.timeEnd.minuteOfDay visits := by
  obtain ⟨run⟩ := doneRun_of_mem h hdone
  -- the published visits are on time
  obtain ⟨places, order, legs, hplaces, horder, hlegs, hitinerary, visits, hne, hperm, hids, hshows,
    hontime⟩ := run.visits hhub hstatus
  refine ⟨scoreTimeline_onTime hplaces horder hlegs hitinerary hne hperm hids hshows hontime, places,
    order, legs, hplaces, horder, hlegs, visits, hperm, hids, fun v hv => ?_, hontime⟩
  -- the clock times of a visit lie within the day, so they read back
  have hstay := hontime.stay_nonneg v hv
  obtain ⟨hstart, hstop⟩ := hontime.window v hv
  have hlo := req.date.timeStart.minuteOfDay_nonneg
  have hhi := req.date.timeEnd.minuteOfDay_lt
  unfold Visit.stop at hstop ⊢
  exact ⟨hshows v hv, minutes_minutesToHhmm _ (by omega) (by omega),
    minutes_minutesToHhmm _ (by omega) (by omega)⟩

/-- The sample hub's stays are minutes. -/
theorem sampleHub_dwellMinutes : DwellMinutes sampleHub := by
  rintro places _ _ ⟨⟩ ⟨⟩ e he
  rw [List.mem_reverse, List.mem_singleton] at he
  exact .inr ⟨60, by decide, by rw [he]; rfl⟩

/-- The judge agrees with the sample trip. -/
theorem timeline_judged_sample :
    ∃ p ∈ runJob sampleEnv "j" (sampleTrip .init),
      scoreTimeline samplePlatform p.jsonFields (.str "09:00") (.str "20:00") true =
        .ok ⟨true, true, []⟩ := by
  obtain ⟨p, hp, hdone, hstatus⟩ := sampleTrip_done .init
  have hmem : p ∈ runJob sampleEnv "j" (sampleTrip .init) := hp ▸ List.mem_singleton_self p
  exact ⟨p, hmem, (timeline_judged sampleHub_dwellMinutes hmem hdone (.inl hstatus)).1⟩

end MapServiceAgent.Native

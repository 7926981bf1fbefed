import MapServiceAgent.Spec.BudgetCorrect
import MapServiceAgent.Spec.ItineraryCorrect

/-!
# Routes the user set

A given route is published as it was given, place by place, or not at all. Only
`optimize` lets the order change, and then only within a day.

## Key results

- `DoneRun.given`: the verified places reach the message untouched
- `runJob_unmatched`: a place no candidate matches fails the job
- `runJob_overflowed`: so does a day that runs over
- `given_route_kept`: all of it in one place
-/

namespace MapServiceAgent.Native

variable {env : Env} {jobId : String} {req : AgentRequest} {s s' : AgentState} {j j' : Job}

/-! ### The same place -/

/-- The published place is the given one: on its day, under its identifier, or
    where none was given under its name and within 100 m. -/
def Corresponds (pf : Platform) (given : SelectedPlace) (p : Place) : Prop :=
  p.day = given.day ∧
    ((∃ cid, cid ≠ "" ∧ given.contentId = some cid ∧ p.contentId = some cid) ∨
      ((∀ cid, given.contentId = some cid → cid = "") ∧ strip given.name = strip p.name ∧
        (pf.straightKm given.lat given.lng p.lat p.lng).leb (.fin (1 / 10)) = true))

/-- A place that matches a given one, on its day, corresponds to it. -/
theorem corresponds_of_matchesGiven {pf : Platform} {given : SelectedPlace} {p : Place}
    (hday : p.day = given.day) (h : matchesGiven pf given p = true) : Corresponds pf given p := by
  refine ⟨hday, ?_⟩
  have hlocation : matchesGiven.matchesLocation pf given p = true →
      strip given.name = strip p.name ∧
        (pf.straightKm given.lat given.lng p.lat p.lng).leb (.fin (1 / 10)) = true := fun h => by
    obtain ⟨hname, hkm⟩ := Bool.and_eq_true_iff.mp h
    exact ⟨eq_of_beq hname, hkm⟩
  unfold matchesGiven at h
  split at h
  · rename_i cid hcid
    split at h
    · rename_i hne
      exact .inl ⟨cid, hne, hcid, eq_of_beq h⟩
    · -- an empty identifier counts as none
      rename_i hempty
      refine .inr ⟨fun cid' hcid' => ?_, hlocation h⟩
      obtain rfl : cid = cid' := Option.some.inj (hcid.symm.trans hcid')
      exact not_not.mp hempty
  · -- there is no identifier to go by
    rename_i hnone
    exact .inr ⟨fun cid hcid => (nomatch hnone.symm.trans hcid), hlocation h⟩

/-- A verified place corresponds to the given one. -/
theorem Verified.corresponds {i : Nat} {given : SelectedPlace} {p : Place}
    (h : Verified env req i given p) : Corresponds env.platform given p :=
  corresponds_of_matchesGiven h.place.2.1 h.place.2.2.1

/-- Texts and times change nothing of it. -/
theorem Corresponds.enrich {pf : Platform} {given : SelectedPlace} {p : Place}
    (h : Corresponds pf given p) (reason bullets slot) :
    Corresponds pf given (p.enrich reason bullets slot) := h

/-- Verified places are the given ones, in their order. -/
theorem verified_corresponds {i : Nat} {given : List SelectedPlace} {places : List Place}
    (h : List.Forall₂ (fun g p => Verified env req g.2 g.1 p) (given.zipIdx i) places) :
    List.Forall₂ (Corresponds env.platform) given places := by
  induction given generalizing i places with
  | nil =>
    cases h
    exact .nil
  | cons g rest ih =>
    rw [List.zipIdx_cons] at h
    cases h with
    | cons hp hrest => exact .cons hp.corresponds (ih hrest)

/-! ### The order of visits -/

/-- Without `optimize` a route is visited as given, and with it as given but
    for the order within a day. -/
theorem visitOrderOf_route (pf : Platform) {places : List Place} (hstage : req.stage = .route)
    (hdays : DayByDay places) :
    ∃ visited : List Place, visited.Perm places ∧ DayByDay visited ∧
      visitOrderOf pf req places = visited.map (·.placeId) ∧
      (req.optimize = false → visited = places) := by
  cases hoptimize : req.optimize with
  | false =>
    refine ⟨places, .refl _, hdays, ?_, fun _ => rfl⟩
    rw [visitOrderOf, if_pos ⟨hstage, hoptimize⟩]
  | true =>
    obtain ⟨visited, hperm, hvisited, horder⟩ := orderPlaces_visits pf places
    refine ⟨visited, hperm, hvisited, ?_, fun h => nomatch h⟩
    rw [visitOrderOf, if_neg fun h => by simp [hoptimize] at h, horder]

/-- Orders that both go day by day have the same days in the same positions. -/
theorem DayByDay.days_eq {visited places : List Place} (hvisited : DayByDay visited)
    (hplaces : DayByDay places) (hperm : visited.Perm places) :
    visited.map (·.day) = places.map (·.day) :=
  List.Perm.eq_of_pairwise' (List.pairwise_map.mpr hvisited) (List.pairwise_map.mpr hplaces)
    (hperm.map _)

/-! ### Runs of a given route -/

/-- The verified places reach the last node that may touch them untouched. -/
theorem DoneRun.given {p : JobDonePayload} (run : DoneRun env jobId req p)
    (hstage : req.stage = .route) :
    ∃ places legs, verifyFrom env req 0 req.given = .ok (some places) ∧ DayByDay places ∧
      Routed run.fitted places (visitOrderOf env.platform req places) legs := by
  obtain ⟨-, hvalid, places, hplaces, -, -, -, hroute⟩ := run.draft.places run.drafted_ok
  obtain ⟨drafted, -, dropped, legs, hdrafted, -, hfitted, -, hdropped⟩ := run.fitted_routed
  obtain rfl : drafted = places := Option.some.inj (hdrafted.symm.trans hplaces)
  have hverify := hroute hstage
  refine ⟨drafted, legs, hverify, ?_, ?_⟩
  · -- they were given in day order, or the request was refused
    have hsorted := hvalid.route_order hstage
    rw [← verified_days (verifyFrom_verified hverify)] at hsorted
    exact List.pairwise_map.mp hsorted
  · -- nothing is dropped from a route
    rw [hdropped hstage] at hfitted
    simpa using hfitted

/-- What a route's message carries, place by place. -/
theorem DoneRun.given_published {p : JobDonePayload} (run : DoneRun env jobId req p)
    (hstage : req.stage = .route) :
    ∃ places order visited, p.places = some places ∧ p.visitOrder = some order ∧
      List.Forall₂ (Corresponds env.platform) req.given places ∧
      (places.map (·.placeId)).Nodup ∧ visited.Perm places ∧ order = visited.map (·.placeId) ∧
      visited.map (·.day) = req.given.map (·.day) ∧ DayByDay visited ∧
      (req.optimize = false → visited = places) := by
  obtain ⟨places, legs, hverify, hdays, hs⟩ := run.given hstage
  obtain ⟨enrich, henrich, hplaces, horder, -, -⟩ := run.published hs
  obtain ⟨visited, hperm, hvisited, hvisits, hgiven⟩ :=
    visitOrderOf_route env.platform hstage hdays
  have hverified := verifyFrom_verified hverify
  -- the texts added last leave places, days and order alone
  refine ⟨_, _, visited.map enrich, hplaces, horder, ?_, (henrich.itinerary hs.itinerary).ids_nodup,
    hperm.map _, ?_, ?_, henrich.dayByDay hvisited, ?_⟩
  · refine List.forall₂_map_right_iff.mpr ((verified_corresponds hverified).imp fun g x hx => ?_)
    obtain ⟨_, _, hx'⟩ := henrich x
    rw [hx']
    exact hx.enrich _ _ _
  · -- the order is that of the visits
    rw [henrich.map_placeId, hvisits]
  · -- each day has as many stops as were given for it
    rw [henrich.map_day, hvisited.days_eq hdays hperm, verified_days hverified]
  · -- unless asked to, nothing is put in another order
    intro h
    rw [hgiven h]

/-! ### Routes that fail -/

/-- No candidate found under its name is the place the user picked. -/
def Unmatched (env : Env) (req : AgentRequest) (i : Nat) (given : SelectedPlace) : Prop :=
  ∀ response candidates, searchSelected env req i given = .ok response →
    responsePlaces response = .ok candidates → ∀ c ∈ candidates, ∀ p,
      placeFromCandidate env.platform i c "" given.day = .ok p →
      matchesGiven env.platform given p = false

/-- A given place that nothing matches is not verified. -/
theorem Unmatched.not_verified {i : Nat} {given : SelectedPlace} {p : Place}
    (h : Unmatched env req i given) : ¬ Verified env req i given p := by
  rintro ⟨response, candidates, hresponse, hcandidates, hfound⟩
  obtain ⟨c, hc, hplace, hmatch⟩ := findMatch_some hfound
  exact absurd (hmatch.symm.trans (h response candidates hresponse hcandidates c hc p hplace))
    (by decide)

/-- A job that leaves no result leaves a failure. -/
theorem runJob_failed_of_not_done (h : ∀ p, p.status = .done → IsEmpty (DoneRun env jobId req p)) :
    ∃ p, runJob env jobId req = [p] ∧ p.status = .failed := by
  obtain ⟨p, hp⟩ := runJob_single env jobId req
  refine ⟨p, hp, ?_⟩
  cases hstatus : p.status with
  | failed => rfl
  | done =>
    obtain ⟨run⟩ := doneRun_of_mem (hp ▸ List.mem_singleton_self p) hstatus
    exact (h p hstatus).elim run

/-- A place no candidate matches fails the job. -/
theorem runJob_unmatched (hstage : req.stage = .route) {given : SelectedPlace} {i : Nat}
    (hgiven : (given, i) ∈ req.given.zipIdx) (h : Unmatched env req i given) :
    ∃ p, runJob env jobId req = [p] ∧ p.status = .failed := by
  refine runJob_failed_of_not_done fun p _ => ⟨fun run => ?_⟩
  obtain ⟨places, -, hverify, -, -⟩ := run.given hstage
  obtain ⟨x, -, hx⟩ := exists_of_mem_left (verifyFrom_verified hverify) hgiven
  exact h.not_verified hx

/-- A day only runs over where times are computed. -/
theorem buildTimeline_overflowed (h : buildTimeline env s = .ok s')
    (hnone : s.timelineOverflowDays = none) (hover : s'.timelineOverflowDays.getD [] ≠ []) :
    env.settings.timelineEnabled = true := by
  by_contra hdisabled
  refine hover ?_
  unfold buildTimeline at h
  dsimp only at h
  split at h
  · cases h
    rw [hnone, Option.getD_none]
  · rw [if_pos (.inl (Bool.eq_false_iff.mpr hdisabled))] at h
    cases h
    rw [hnone, Option.getD_none]

/-- Over time, a given route fails instead of losing a place. -/
theorem fitTimeBudget_route (hstage : s.request.stage = .route)
    (henabled : env.settings.timelineEnabled = true)
    (hover : s.timelineOverflowDays.getD [] ≠ []) :
    ∃ s', fitTimeBudget env s = .ok s' ∧ s'.failed = true := by
  unfold fitTimeBudget
  dsimp only
  cases hs : s.failed with
  | true => exact ⟨s, if_pos rfl, hs⟩
  | false =>
    rw [if_neg Bool.false_ne_true, if_neg (not_or.mpr ⟨by simp [henabled], hover⟩),
      if_pos (.inl hstage)]
    exact ⟨_, rfl, rfl⟩

/-- A route with a day that runs over fails. -/
theorem runJob_overflowed (hstage : req.stage = .route)
    (hj : (agentGraph env).Reaches (Job.start jobId req) .buildTimeline j)
    (hrun : runNode env .buildTimeline j = (.ok (), j'))
    (hover : j'.state.timelineOverflowDays.getD [] ≠ []) :
    ∃ p, runJob env jobId req = [p] ∧ p.status = .failed := by
  have hj' : (agentGraph env).Reaches (Job.start jobId req) .fitTimeBudget j' :=
    .step hj hrun rfl
  have huntimed := untimed_of_reaches (by decide) hj
  have henabled := buildTimeline_overflowed (ofState_ok hrun) (congrArg (·.2.2) huntimed) hover
  -- the node that fits sees the request of the job
  have hreq : j'.state.request = req := (budgetAt_of_reaches hj').request
  obtain ⟨s', hfit, hfailed⟩ :=
    fitTimeBudget_route (s := j'.state) (by rw [hreq]; exact hstage) henabled hover
  refine runJob_failed hj' ?_
  rw [show runNode env .fitTimeBudget j' = (.ok (), { j' with state := s' }) by
    simp only [runNode, JobM.ofState, hfit]]
  exact hfailed

/-- A given route is published place by place as it was given, on its days, in
    its order unless `optimize` lets it change within a day. Where a place is not
    found with its source, or a day runs over, it is not published at all. -/
theorem given_route_kept (env : Env) (jobId : String) (req : AgentRequest)
    (hstage : req.stage = .route) :
    (∀ p ∈ runJob env jobId req, p.status = .done →
      ∃ places order visited, p.places = some places ∧ p.visitOrder = some order ∧
        List.Forall₂ (Corresponds env.platform) req.given places ∧
        (places.map (·.placeId)).Nodup ∧ visited.Perm places ∧
        order = visited.map (·.placeId) ∧ visited.map (·.day) = req.given.map (·.day) ∧
        DayByDay visited ∧ (req.optimize = false → visited = places)) ∧
    ((∃ g ∈ req.given.zipIdx, Unmatched env req g.2 g.1) →
      ∃ p, runJob env jobId req = [p] ∧ p.status = .failed) ∧
    (∀ j j', (agentGraph env).Reaches (Job.start jobId req) .buildTimeline j →
      runNode env .buildTimeline j = (.ok (), j') →
      j'.state.timelineOverflowDays.getD [] ≠ [] →
      ∃ p, runJob env jobId req = [p] ∧ p.status = .failed) := by
  refine ⟨fun p hp hdone => ?_, ?_, fun j j' hj hrun hover => runJob_overflowed hstage hj hrun hover⟩
  · -- a result that is done comes from a run without a failure
    obtain ⟨run⟩ := doneRun_of_mem hp hdone
    exact run.given_published hstage
  · rintro ⟨⟨given, i⟩, hgiven, h⟩
    exact runJob_unmatched hstage hgiven h

/-- The sample route is published as given. -/
theorem given_route_kept_sample :
    ∃ p places, runJob sampleEnv "j" (sampleTrip .route) = [p] ∧ p.places = some places ∧
      List.Forall₂ (Corresponds samplePlatform) (sampleTrip .route).given places ∧
      p.visitOrder = some (places.map (·.placeId)) := by
  obtain ⟨p, hp, hdone, -⟩ := sampleTrip_done .route
  obtain ⟨places, order, visited, hplaces, horder, hgiven, -, -, hvisits, -, -, hsame⟩ :=
    (given_route_kept sampleEnv "j" (sampleTrip .route) rfl).1 p (hp ▸ List.mem_singleton_self p) hdone
  exact ⟨p, places, hp, hplaces, hgiven, by rw [horder, hvisits, hsame rfl]⟩

end MapServiceAgent.Native

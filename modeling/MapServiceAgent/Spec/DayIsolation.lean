import MapServiceAgent.Spec.TimelineCorrect

/-!
# Days do not touch each other

The times of a day are those of its own stops laid end to end: whatever is
dropped or shortened on another day leaves them as they are.

## Key results

- `visitsFrom_filter_day`: the loop of `_plan_timeline` lays a day end to end
- `mem_overflowed_planTimeline`: when a day runs over
- `lookup_planTimeline`: the slots of a day
-/

namespace MapServiceAgent.Native

variable {pf : Platform} {env : Env} {s s' : AgentState}

/-! ### One day in the loop -/

namespace DayPlan

variable {plan : DayPlan}

/-- On the day it is in, the loop goes on from its cursor. -/
theorem startOf_self (cursor d : Int) : plan.startOf cursor (some d) d = cursor := if_pos rfl

/-- The visits of one day are its stops laid end to end, from the first minute
    of the day or, on the day the loop is in, from the cursor. -/
theorem visitsFrom_filter_day {visited : List Place} (hdays : DayByDay visited)
    (hplaces : ∀ x ∈ visited, plan.placeOf x.placeId = some x) (d cursor : Int)
    {currentDay : Option Int} (hcurrent : ∀ c ∈ currentDay, ∀ x ∈ visited, c ≤ x.day) :
    (plan.visitsFrom cursor currentDay visited).filter (fun v => v.place.day = d) =
      endToEnd (fun x _ => plan.travel x.placeId + plan.bufferMin) (fun x => plan.stay x.placeId)
        (plan.startOf cursor currentDay d) (visited.filter fun x => x.day = d) := by
  induction visited generalizing cursor currentDay with
  | nil => rfl
  | cons x rest ih =>
    obtain ⟨hx, hrest⟩ := List.pairwise_cons.mp hdays
    have hplaces' := fun y hy => hplaces y (List.mem_cons_of_mem _ hy)
    have hcurrent' : ∀ c ∈ some x.day, ∀ y ∈ rest, c ≤ y.day := by
      rintro _ ⟨⟩ y hy
      exact hx y hy
    rw [visitsFrom]
    by_cases hd : x.day = d
    · -- a stop of the day starts where the cursor is
      subst hd
      rw [List.filter_cons_of_pos (by simp), List.filter_cons_of_pos (by simp),
        ih hrest hplaces' _ hcurrent']
      cases hsame : rest.filter (fun y => y.day = x.day) with
      | nil => rfl
      | cons y ys =>
        -- the next stop is on the same day, so the cursor counts the way
        obtain ⟨hy, hday⟩ := List.mem_filter.mp (hsame ▸ List.mem_cons_self : y ∈ _)
        cases rest with
        | nil => cases hy
        | cons z rest =>
          have hz : z.day = x.day :=
            head_key_eq (fun p : Place => p.day) hrest (hx z List.mem_cons_self) hy
              (of_decide_eq_true hday)
          have hnext : plan.cursorAfter x.placeId x.day
              (plan.startOf cursor currentDay x.day + plan.stay x.placeId)
              ((z :: rest).head?.map (·.placeId)) =
              plan.startOf cursor currentDay x.day + plan.stay x.placeId +
                (plan.travel x.placeId + plan.bufferMin) := by
            simp only [cursorAfter, List.head?_cons, Option.map_some, Option.bind_some,
              hplaces' z List.mem_cons_self, hz, if_true]
            omega
          rw [hnext, endToEnd, startOf_self]
    · rw [List.filter_cons_of_neg (by simpa using hd), List.filter_cons_of_neg (by simpa using hd),
        ih hrest hplaces' _ hcurrent']
      -- a stop of another day only moves the cursor
      have hother : plan.startOf (plan.cursorAfter x.placeId x.day
          (plan.startOf cursor currentDay x.day + plan.stay x.placeId)
          (rest.head?.map (·.placeId))) (some x.day) d = plan.startMin :=
        if_neg fun h => hd (Option.some.inj h)
      rw [hother]
      by_cases hnow : currentDay = some d
      · -- the day the loop was in has ended
        have hlt : d < x.day :=
          lt_of_le_of_ne (hcurrent d hnow x List.mem_cons_self) fun h => hd h.symm
        have hnone : rest.filter (fun y => y.day = d) = [] :=
          List.filter_eq_nil_iff.mpr fun y hy hday => by
            have := hx y hy
            have := of_decide_eq_true hday
            omega
        rw [hnone]
        rfl
      · rw [startOf, if_neg hnow]

/-- A day runs over when one of its visits does. -/
theorem mem_overflowed_foldl {visits : List (Visit Place)} {out : Layout} {d : Int} :
    d ∈ (visits.foldl plan.record out).overflowed ↔ d ∈ out.overflowed ∨
      ∃ v ∈ visits, v.place.day = d ∧ plan.endMin < v.start + plan.stay v.place.placeId := by
  induction visits generalizing out with
  | nil => simp
  | cons v visits ih =>
    have hrecord : d ∈ (plan.record out v).overflowed ↔ d ∈ out.overflowed ∨
        v.place.day = d ∧ plan.endMin < v.start + plan.stay v.place.placeId := by
      unfold record visit
      dsimp only
      split
      · -- the day runs over, and is noted once
        rename_i hover
        rw [List.mem_append, List.mem_singleton]
        constructor
        · rintro (h | rfl)
          · exact Or.inl h
          · exact Or.inr ⟨rfl, hover.1⟩
        · rintro (h | ⟨rfl, -⟩)
          · exact Or.inl h
          · exact Or.inr rfl
      · -- it does not, or is noted already
        rename_i hfits
        constructor
        · intro h
          exact Or.inl h
        · rintro (h | ⟨rfl, hover⟩)
          · exact h
          · exact not_not.mp fun hnew => hfits ⟨hover, hnew⟩
    rw [List.foldl_cons, ih, hrecord]
    simp only [List.mem_cons, exists_eq_or_imp, or_assoc]

end DayPlan

/-! ### The way between two stops -/

/-- The minutes a rebuilt leg between two stops takes. -/
def wayMinutes (pf : Platform) (s : AgentState) (a b : Int) : Int :=
  (rebuildLeg pf s a b).toOption.elim 0 fun leg => max 0 leg.estimatedDurationMin

/-- With rebuilt legs the travel after a stop is the way to the next one. -/
theorem legMinutes_rebuilt {order : List Int} {legs : List Leg} (horder : order.Nodup)
    (hlegs : rebuildLegs pf s order = .ok legs) {p : Int × Int} (hp : p ∈ pairs order) :
    legMinutes legs order p.1 = wayMinutes pf s p.1 p.2 := by
  obtain ⟨leg, hmem, hleg⟩ := exists_mem_zip_of_pairs (mapM_eq_ok.mp hlegs) hp
  have hfound : keyedBy (·.1) (order.zip legs) p.1 = some (p.1, leg) :=
    keyedBy_of_mem ((map_fst_zip_sublist order legs).nodup horder) hmem
  have hway : rebuildLeg pf s p.1 p.2 = .ok leg := hleg
  unfold legMinutes wayMinutes
  rw [hfound, hway]
  rfl

/-! ### One day of a plan -/

/-- The visits of a day with these stops. -/
def dayVisits (env : Env) (s : AgentState) (stay : Int → Int) (stops : List Int) :
    List (Visit Int) :=
  endToEnd (fun a b => wayMinutes env.platform s a b + max 0 env.settings.timelineBufferMinutes) stay
    s.request.date.timeStart.minuteOfDay stops

/-- A day with these stops runs over. -/
def DayOver (env : Env) (s : AgentState) (stay : Int → Int) (stops : List Int) : Prop :=
  ∃ v ∈ dayVisits env s stay stops, s.request.date.timeEnd.minuteOfDay < v.stop

/-- A day's visits depend on the stays of its own stops. -/
theorem dayVisits_congr {stay stay' : Int → Int} {stops : List Int}
    (h : ∀ pid ∈ stops, stay pid = stay' pid) :
    dayVisits env s stay stops = dayVisits env s stay' stops :=
  endToEnd_congr (fun _ _ => rfl) h

/-- Whether a day runs over depends on the stays of its own stops. -/
theorem dayOver_congr {stay stay' : Int → Int} {stops : List Int}
    (h : ∀ pid ∈ stops, stay pid = stay' pid) :
    DayOver env s stay stops ↔ DayOver env s stay' stops := by
  unfold DayOver
  rw [dayVisits_congr h]

/-- A state that holds the itinerary of another one, or what is left of it, with
    legs rebuilt from there. -/
structure Derived (env : Env) (s t : AgentState) (places : List Place) (order : List Int)
    (legs : List Leg) : Prop extends Routed t places order legs where
  request_eq : t.request = s.request
  rebuilt : rebuildLegs env.platform s order = .ok legs

variable {t : AgentState} {places : List Place} {order : List Int} {legs : List Leg}

/-- An itinerary is derived from itself. -/
theorem Routed.derived (hs : Routed s places order legs) : Derived env s s places order legs :=
  { hs with request_eq := rfl, rebuilt := rebuildLegs_same hs }

/-- The plan of a derived itinerary writes down its visits, and those of a day
    are its stops laid end to end. -/
theorem Derived.visits (h : Derived env s t places order legs) (stay : Int → Int) :
    ∃ visits : List (Visit Place),
      planTimeline env.settings t stay =
        visits.foldl (dayPlan env.settings t stay).record {} ∧
      (visits.map (·.place.placeId)).Nodup ∧ (∀ v ∈ visits, v.stay = stay v.place.placeId) ∧
      ∀ d, (visits.filter fun v => v.place.day = d).map (Visit.map (·.placeId)) =
        dayVisits env s stay (dayOrderOf t order [] d) := by
  have hnodup := h.itinerary.order_nodup
  obtain ⟨visited, hperm, hdays, hvisited⟩ := h.itinerary.visits
  have hplaces : ∀ x ∈ visited, t.placeById x.placeId = some x :=
    fun x hx => h.toRouted.placeById (hperm.mem_iff.mp hx)
  have hids := (dayPlan env.settings t stay).map_placeId_visitsFrom
    (dayPlan env.settings t stay).startMin none visited
  refine ⟨(dayPlan env.settings t stay).visitsFrom (dayPlan env.settings t stay).startMin none
    visited, ?_, ?_, fun v hv => DayPlan.stay_visitsFrom hv, fun d => ?_⟩
  · -- the stops are visited in the order, each laid out in turn
    rw [planTimeline, h.order_eq, Option.getD_some, hvisited]
    exact DayPlan.layOut_eq_foldl hplaces _ _ _
  · -- every stop is visited once
    rw [hids, ← hvisited]
    exact hnodup
  · -- the stops of a day are the visited places of that day
    have hstops : dayOrderOf t order [] d = (visited.filter fun x => x.day = d).map (·.placeId) := by
      rw [dayOrderOf, hvisited, List.filter_map]
      refine congrArg (List.map _) (List.filter_congr fun x hx => ?_)
      simp [hplaces x hx]
    have hstart : (dayPlan env.settings t stay).startOf (dayPlan env.settings t stay).startMin none
        d = s.request.date.timeStart.minuteOfDay := by
      rw [DayPlan.startOf, if_neg (by simp), ← h.request_eq]
      rfl
    rw [DayPlan.visitsFrom_filter_day hdays hplaces d _ fun c hc => absurd hc (by simp), hstart,
      hstops, dayVisits, endToEnd_map]
    refine congrArg _ (endToEnd_congr (fun p hp => ?_) fun _ _ => rfl)
    -- two stops of a day are next to each other in the order
    have hpair : (p.1.placeId, p.2.placeId) ∈ pairs order := by
      rw [hvisited, pairs_map]
      exact List.mem_map_of_mem (pairs_filter_subset hdays d hp)
    have hway := legMinutes_rebuilt hnodup h.rebuilt hpair
    simp only [dayPlan, h.legs_eq, h.order_eq, Option.getD_some]
    rw [hway]

/-- When a day runs over. -/
theorem mem_overflowed_planTimeline (h : Derived env s t places order legs) {stay : Int → Int}
    {d : Int} : d ∈ (planTimeline env.settings t stay).overflowed ↔
      DayOver env s stay (dayOrderOf t order [] d) := by
  obtain ⟨visits, hplan, -, hstay, hday⟩ := h.visits stay
  have hend : (dayPlan env.settings t stay).endMin = s.request.date.timeEnd.minuteOfDay := by
    rw [← h.request_eq]
    rfl
  rw [hplan, DayPlan.mem_overflowed_foldl, hend, DayOver, ← hday d]
  -- the visits of the plan are the stops of the day, one by one
  constructor
  · -- a visit of the plan is a stop of its day
    rintro (hnone | ⟨v, hv, hd, hover⟩)
    · exact absurd hnone List.not_mem_nil
    · refine ⟨v.map (·.placeId), List.mem_map_of_mem (List.mem_filter.mpr ⟨hv, by simpa using hd⟩), ?_⟩
      rw [Visit.map, Visit.stop, hstay v hv]
      exact hover
  · -- a stop of the day was visited
    rintro ⟨w, hw, hover⟩
    obtain ⟨v, hv, rfl⟩ := List.mem_map.mp hw
    obtain ⟨hv, hd⟩ := List.mem_filter.mp hv
    refine Or.inr ⟨v, hv, of_decide_eq_true hd, ?_⟩
    rw [Visit.map, Visit.stop, hstay v hv] at hover
    exact hover

/-- Every stop of a day has the slot of its visit. -/
theorem lookup_planTimeline (h : Derived env s t places order legs) {stay : Int → Int} {d : Int}
    {v : Visit Int} (hv : v ∈ dayVisits env s stay (dayOrderOf t order [] d)) :
    (planTimeline env.settings t stay).timeline.lookup v.place =
      some ⟨v.stay, minutesToHhmm v.start, minutesToHhmm v.stop, none⟩ := by
  obtain ⟨visits, hplan, hnodup, hstay, hday⟩ := h.visits stay
  rw [← hday d] at hv
  obtain ⟨u, hu, rfl⟩ := List.mem_map.mp hv
  obtain ⟨hu, -⟩ := List.mem_filter.mp hu
  rw [hplan, Visit.map, DayPlan.lookup_foldl_record hnodup hu, DayPlan.slot, Visit.stop, hstay u hu]
  rfl

end MapServiceAgent.Native

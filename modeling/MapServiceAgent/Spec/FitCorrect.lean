import MapServiceAgent.Spec.DayTrim

/-!
# Fitting the trip into its days

Whatever trip comes to `fit_time_budget` with a day that runs over is shortened
on those days only and as little as need be, and then fits or is refused.

## Key results

- `Trip.trimmed`: what the loops make of the trip
- `fitTimeBudget_fits`: what the node makes of it
- `overfull_trip_fits`: which holds of every trip that comes to the node
-/

namespace MapServiceAgent.Native

variable {pf : Platform} {env : Env} {jobId : String} {req : AgentRequest} {s : AgentState}
  {places : List Place} {order : List Int} {legs : List Leg}

/-! ### What is left -/

/-- A state with some places dropped draws the legs it would have drawn. -/
theorem Trip.rebuildLegs_rest (h : Trip env s places order legs) (dropped : List Int) :
    rebuildLegs pf { s with
        places := some (places.filter fun p => p.placeId ∉ dropped)
        visitOrder := some (order.filter (· ∉ dropped)) } (order.filter (· ∉ dropped)) =
      rebuildLegs pf s (order.filter (· ∉ dropped)) := by
  -- the places left are found as before
  have hplace : ∀ pid ∈ order.filter (· ∉ dropped),
      keyedBy (·.placeId) (places.filter fun p => p.placeId ∉ dropped) pid = s.placeById pid := by
    intro pid hpid
    obtain ⟨hpid, hkept⟩ := List.mem_filter.mp hpid
    obtain ⟨p, hp, rfl⟩ := List.mem_map.mp (h.itinerary.order_perm.mem_iff.mp hpid)
    rw [h.toRouted.placeById hp]
    exact keyedBy_of_mem ((List.filter_sublist.map _).nodup h.itinerary.ids_nodup)
      (List.mem_filter.mpr ⟨hp, hkept⟩)
  refine mapM_congr fun p hp => ?_
  have hfst := hplace p.1 (fst_mem_of_mem_pairs hp)
  have hsnd := hplace p.2 (snd_mem_of_mem_pairs hp)
  unfold rebuildLeg AgentState.placeById
  dsimp only [Option.getD_some]
  rw [hfst, hsnd]
  rfl

/-- Places can be dropped from a trip, and what is left is derived from it. -/
theorem Trip.drop (h : Trip env s places order legs) (dropped : List Int) :
    ∃ s₁ legs', dropPlaces env.platform s dropped = .ok s₁ ∧
      Derived env s s₁ (places.filter fun p => p.placeId ∉ dropped) (order.filter (· ∉ dropped))
        legs' := by
  by_cases hnil : dropped = []
  · subst hnil
    refine ⟨s, legs, rfl, ?_⟩
    simpa using h.toRouted.derived
  · obtain ⟨legs', hlegs⟩ := returns_rebuildLegs h.great (order.filter (· ∉ dropped))
    refine ⟨{ s with
      places := some (places.filter fun p => p.placeId ∉ dropped)
      visitOrder := some (order.filter (· ∉ dropped))
      legs := some legs' }, legs', ?_, ⟨rfl, rfl, rfl, h.itinerary.filter _ (rebuildLegs_ends hlegs)⟩,
      rfl, hlegs⟩
    -- the legs are those between the places left
    unfold dropPlaces
    rw [if_neg hnil, h.places_eq, h.order_eq]
    dsimp only [Option.getD_some]
    rw [h.rebuildLegs_rest, hlegs]
    rfl

/-! ### What the node is for -/

/-- The stops of a day, in visit order. -/
def stopsOn (s : AgentState) (d : Int) : List Int := dayOrderOf s (s.visitOrder.getD []) [] d

/-- The last `k` stops of a day that are not pinned. -/
def lastUnpinnedOn (s : AgentState) (d : Int) (k : Nat) : List Int :=
  (unpinned s (stopsOn s d)).rtake k

/-- The stays so far. -/
def staysOf (s : AgentState) (pid : Int) : Int :=
  ((s.timeline.getD []).lookup pid).elim 0 (·.stayMinutes)

/-- The days that ran over, as they came to the node. -/
def overDays (s : AgentState) : List Int := s.timelineOverflowDays.getD []

/-- The stop is not among the last ones dropped. -/
def Stays (s : AgentState) (k : Int → Nat) (pid : Int) : Prop :=
  ∀ d ∈ overDays s, pid ∉ lastUnpinnedOn s d (k d)

instance (s : AgentState) (k : Int → Nat) : DecidablePred (Stays s k) := fun pid =>
  inferInstanceAs (Decidable (∀ d ∈ overDays s, pid ∉ lastUnpinnedOn s d (k d)))

/-- A trip shortened by the last `k d` unpinned stops of every day `d` that ran
    over, where each day keeps two stops or all of them and loses no more than it
    must. -/
structure Shortened (env : Env) (s s' : AgentState) (k : Int → Nat) : Prop where
  places_eq : s'.places.getD [] = (s.places.getD []).filter fun p => Stays s k p.placeId
  order_eq : s'.visitOrder.getD [] = (s.visitOrder.getD []).filter (Stays s k ·)
  pinned : ∀ p ∈ s.places.getD [], ∀ cid, p.contentId = some cid →
    cid ∈ s.pinnedContentIds.getD [] → p ∈ s'.places.getD []
  overfull : ∀ d ∈ overDays s, stopsOn s' d = (stopsOn s d).filter (· ∉ lastUnpinnedOn s d (k d))
  others : ∀ d ∉ overDays s, stopsOn s' d = stopsOn s d
  count : ∀ d ∈ overDays s, k d ≤ (unpinned s (stopsOn s d)).length ∧
    min 2 (stopsOn s d).length ≤ (stopsOn s' d).length
  least : ∀ d ∈ overDays s, 0 < k d → ∃ trial,
    planTimelineWith env s (floorStays (stopsOn s d) (staysOf s)) (s.visitOrder.getD [])
      (lastUnpinnedOn s d (k d - 1)) = .ok trial ∧ d ∈ trial.overflowed
  stays : ∀ pid slot, (s'.timeline.getD []).lookup pid = some slot →
    slot.stayMinutes = staysOf s pid ∨ slot.stayMinutes = 10 ∧ 10 < staysOf s pid

/-- The job goes on: its times are the planner's, no day runs over, and the days
    that did not before have the slots they had. -/
structure InTime (env : Env) (s s' : AgentState) : Prop where
  ok : s'.failed = false
  planned : ∃ stay source, (planTimeline env.settings s' stay).overflowed = [] ∧
    s'.timeline = some (withSources source (planTimeline env.settings s' stay).timeline)
  kept : ∀ d ∉ overDays s, ∀ pid ∈ stopsOn s d, ∃ slot,
    (s.timeline.getD []).lookup pid = some slot ∧ (s'.timeline.getD []).lookup pid = some slot

/-- The trip is shortened as little as need be, and fits or is refused. -/
def Fits (env : Env) (s s' : AgentState) : Prop :=
  ∃ k, Shortened env s s' k ∧
    (s'.failed = true ∧ s'.code = some "invalid_request" ∨ InTime env s s')

/-! ### The times the node begins with -/

/-- The times are those of a plan, as are the days that run over. -/
def PlannedOnce (env : Env) (s : AgentState) : Prop :=
  ∃ stay source, s.timeline = some (withSources source (planTimeline env.settings s stay).timeline) ∧
    overDays s = (planTimeline env.settings s stay).overflowed

/-- The loop notes a day as overfull once. -/
theorem overflowed_nodup (plan : DayPlan) (cursor : Int) (currentDay : Option Int) {out : Layout}
    (hout : out.overflowed.Nodup) (order : List Int) :
    (plan.layOut cursor currentDay out order).overflowed.Nodup := by
  induction order generalizing cursor currentDay out with
  | nil => exact hout
  | cons pid rest ih =>
    rw [DayPlan.layOut]
    split
    · exact ih _ _ hout
    · rename_i place _
      apply ih
      unfold DayPlan.visit
      dsimp only
      split
      · rename_i hover
        -- a day is noted only when it is not yet
        exact List.nodup_append.mpr ⟨hout, List.nodup_singleton _, fun a ha b hb => by
          rw [List.mem_singleton.mp hb]
          exact fun heq => hover.2 (heq ▸ ha)⟩
      · -- the stop fits
        exact hout

/-- The overfull days of a plan are different ones. -/
theorem PlannedOnce.nodup (h : PlannedOnce env s) : (overDays s).Nodup := by
  obtain ⟨stay, source, -, hover⟩ := h
  rw [hover]
  exact overflowed_nodup _ _ _ List.nodup_nil _

/-- Every stop has the slot of its visit, with the stays so far. -/
theorem PlannedOnce.slot (h : PlannedOnce env s) (hs : Routed s places order legs) {d pid : Int}
    (hpid : pid ∈ stopsOn s d) : ∃ v ∈ dayVisits env s (staysOf s) (stopsOn s d), v.place = pid ∧
      ∃ source, (s.timeline.getD []).lookup pid =
        some ⟨v.stay, minutesToHhmm v.start, minutesToHhmm v.stop, some source⟩ := by
  obtain ⟨stay, source, htimes, -⟩ := h
  have hstops : stopsOn s d = dayOrderOf s order [] d := by
    rw [stopsOn, hs.order_eq, Option.getD_some]
  -- every visit has a slot, and every stop a visit
  have hslot : ∀ v ∈ dayVisits env s stay (stopsOn s d), (s.timeline.getD []).lookup v.place =
      some ⟨v.stay, minutesToHhmm v.start, minutesToHhmm v.stop, some (source v.place)⟩ := by
    intro v hv
    rw [hstops] at hv
    rw [htimes, Option.getD_some, lookup_withSources, lookup_planTimeline hs.derived hv]
    rfl
  have hstay : ∀ x ∈ stopsOn s d, stay x = staysOf s x := by
    intro x hx
    obtain ⟨v, hv, rfl⟩ : ∃ v ∈ dayVisits env s stay (stopsOn s d), v.place = x :=
      exists_mem_endToEnd hx
    rw [staysOf, hslot v hv]
    exact (stay_endToEnd hv).symm
  -- the stays of the plan are those the slots say
  rw [dayVisits_congr hstay] at hslot
  obtain ⟨v, hv, hplace⟩ : ∃ v ∈ dayVisits env s (staysOf s) (stopsOn s d), v.place = pid :=
    exists_mem_endToEnd hpid
  exact ⟨v, hv, hplace, source v.place, hplace ▸ hslot v hv⟩

/-- A day that runs over has a stop. -/
theorem PlannedOnce.stops_ne_nil (h : PlannedOnce env s) (hs : Routed s places order legs) {d : Int}
    (hd : d ∈ overDays s) : stopsOn s d ≠ [] := by
  obtain ⟨stay, source, -, hover⟩ := h
  rw [hover, mem_overflowed_planTimeline hs.derived] at hd
  obtain ⟨v, hv, -⟩ := hd
  rw [stopsOn, hs.order_eq, Option.getD_some]
  exact List.ne_nil_of_mem (place_mem_of_mem_endToEnd hv)

/-! ### The trip that is left -/

/-- Taking `k` stops out leaves `k` fewer. -/
theorem length_withoutLast {stops : List Int} {k : Nat} (hnodup : stops.Nodup)
    (hk : k ≤ (unpinned s stops).length) : (withoutLast s stops k).length + k = stops.length := by
  -- those taken out are stops, each of them once
  have hdropped : (stops.filter (· ∈ (unpinned s stops).rtake k)).Perm
      ((unpinned s stops).rtake k) := by
    refine (List.perm_ext_iff_of_nodup (hnodup.filter _)
      ((hnodup.filter _).sublist (List.drop_sublist _ _))).mpr fun pid => ?_
    rw [List.mem_filter, decide_eq_true_iff]
    exact and_iff_right_of_imp mem_of_mem_unpinned_rtake
  have hlen : ((unpinned s stops).rtake k).length = k := by
    rw [List.rtake, List.length_drop]
    omega
  -- every stop is taken out or left
  have hsplit := List.length_eq_length_filter_add (l := stops) (· ∈ (unpinned s stops).rtake k)
  have hkept : (withoutLast s stops k).length =
      (stops.filter fun pid => !decide (pid ∈ (unpinned s stops).rtake k)).length := by
    unfold withoutLast
    simp only [decide_not]
  rw [hdropped.length_eq, hlen] at hsplit
  omega

/-- What the dropped stops are. -/
structure Dropped (env : Env) (s : AgentState) (k : Int → Nat) (dropped : List Int) : Prop where
  mem_iff : ∀ pid, pid ∈ dropped ↔ ∃ d ∈ overDays s, pid ∈ lastUnpinnedOn s d (k d)
  needed : ∀ d ∈ overDays s, Needed env s (staysOf s) (stopsOn s d) (k d)

namespace Dropped

variable {k : Int → Nat} {dropped : List Int}

/-- A place stays when it was not dropped. -/
theorem stays_iff (h : Dropped env s k dropped) (pid : Int) : Stays s k pid ↔ pid ∉ dropped := by
  rw [h.mem_iff]
  constructor
  · rintro hstays ⟨d, hd, hpid⟩
    exact hstays d hd hpid
  · intro hnot d hd hpid
    exact hnot ⟨d, hd, hpid⟩

/-- On its own day a stop is dropped with the last ones. -/
theorem mem_iff_of_stop (h : Dropped env s k dropped) {d pid : Int} (hpid : pid ∈ stopsOn s d) :
    pid ∈ dropped ↔ d ∈ overDays s ∧ pid ∈ lastUnpinnedOn s d (k d) := by
  rw [h.mem_iff]
  constructor
  · rintro ⟨d', hd', hmem⟩
    by_cases hne : d = d'
    · subst hne
      exact ⟨hd', hmem⟩
    · exact absurd (mem_of_mem_unpinned_rtake hmem) (not_mem_dayOrderOf hne hpid)
  · rintro ⟨hd, hmem⟩
    exact ⟨d, hd, hmem⟩

/-- The stops of a day without the dropped ones. -/
theorem stops_filter (h : Dropped env s k dropped) (d : Int) :
    (stopsOn s d).filter (· ∉ dropped) =
      if d ∈ overDays s then withoutLast s (stopsOn s d) (k d) else stopsOn s d := by
  split
  · rename_i hd
    refine List.filter_congr fun pid hpid => ?_
    have hmem : pid ∈ dropped ↔ pid ∈ (unpinned s (stopsOn s d)).rtake (k d) :=
      (h.mem_iff_of_stop hpid).trans (and_iff_right hd)
    simp only [hmem]
  · rename_i hd
    exact List.filter_eq_self.mpr fun pid hpid =>
      decide_eq_true fun hmem => hd ((h.mem_iff_of_stop hpid).mp hmem).1

/-- A pin is not dropped. -/
theorem not_pinned (h : Dropped env s k dropped) {p : Place} (hp : s.placeById p.placeId = some p)
    {cid : String} (hcid : p.contentId = some cid) (hpin : cid ∈ s.pinnedContentIds.getD []) :
    p.placeId ∉ dropped := by
  intro hmem
  obtain ⟨d, -, hmem⟩ := (h.mem_iff _).mp hmem
  have hunpinned : Unpinned s p.placeId :=
    of_decide_eq_true (List.mem_filter.mp (List.mem_of_mem_drop hmem)).2
  rw [Unpinned, hp, Option.bind_some, hcid, Option.all_some, decide_eq_true_iff] at hunpinned
  exact hunpinned hpin

end Dropped

/-- Dropping places takes their stops off every day. -/
theorem Trip.stops_without (h : Trip env s places order legs) (dropped : List Int) (d : Int) :
    dayOrderOf s order dropped d = (stopsOn s d).filter (· ∉ dropped) := by
  have hrest := dayOrderOf_append s order dropped [] d
  rw [List.append_nil] at hrest
  rw [hrest, stopsOn, h.order_eq, Option.getD_some]

/-- Dropping the last unpinned stops of the overfull days, and cutting stays, shortens a
    trip. -/
theorem Trip.shortened {s₁ s' : AgentState} {legs' : List Leg} {k : Int → Nat} {dropped : List Int}
    (h : Trip env s places order legs) (hdropped : Dropped env s k dropped)
    (hs₁ : Derived env s s₁ (places.filter fun p => p.placeId ∉ dropped)
      (order.filter (· ∉ dropped)) legs')
    (hplaces : s'.places = s₁.places) (horder : s'.visitOrder = s₁.visitOrder)
    (hstays : ∀ pid slot, (s'.timeline.getD []).lookup pid = some slot →
      slot.stayMinutes = staysOf s pid ∨ slot.stayMinutes = 10 ∧ 10 < staysOf s pid) :
    Shortened env s s' k := by
  -- every day keeps its stops, but for the last of an overfull one
  have hstops : ∀ d, stopsOn s' d = if d ∈ overDays s then withoutLast s (stopsOn s d) (k d)
      else stopsOn s d := by
    intro d
    have hsame : stopsOn s' d = dayOrderOf s₁ (order.filter (· ∉ dropped)) [] d := by
      rw [stopsOn, horder, hs₁.order_eq, Option.getD_some, dayOrderOf, dayOrderOf]
      unfold AgentState.placeById
      rw [hplaces]
    rw [hsame, h.dayOrderOf_derived hs₁, h.stops_without, hdropped.stops_filter]
  have hnodup : ∀ d, (stopsOn s d).Nodup := by
    intro d
    rw [stopsOn, h.order_eq, Option.getD_some]
    exact h.itinerary.order_nodup.filter _
  constructor
  · -- the places, and the order, are those that stay
    rw [hplaces, hs₁.places_eq, h.places_eq, Option.getD_some, Option.getD_some]
    exact List.filter_congr fun p _ => by simp only [hdropped.stays_iff]
  · rw [horder, hs₁.order_eq, h.order_eq, Option.getD_some, Option.getD_some]
    exact List.filter_congr fun pid _ => by simp only [hdropped.stays_iff]
  · -- a pinned place stays
    intro p hp cid hcid hpin
    rw [h.places_eq, Option.getD_some] at hp
    rw [hplaces, hs₁.places_eq, Option.getD_some]
    exact List.mem_filter.mpr
      ⟨hp, decide_eq_true (hdropped.not_pinned (h.toRouted.placeById hp) hcid hpin)⟩
  · intro d hd
    rw [hstops, if_pos hd]
    rfl
  · intro d hd
    rw [hstops, if_neg hd]
  · intro d hd
    obtain ⟨hk, hneeded⟩ := hdropped.needed d hd
    have hlen := length_withoutLast (hnodup d) hk
    refine ⟨hk, ?_⟩
    rw [hstops, if_pos hd]
    by_cases hzero : k d = 0
    · omega
    · -- before the last drop more than two were left
      obtain ⟨hmore, -⟩ := hneeded (k d - 1) (by omega)
      unfold keepMin at hmore
      omega
  · intro d hd hpos
    -- one stop fewer dropped would not have been enough
    obtain ⟨trial, htrial, hover⟩ := h.trial (floorStays (stopsOn s d) (staysOf s))
      (lastUnpinnedOn s d (k d - 1))
    refine ⟨trial, ?_, ?_⟩
    · rw [h.order_eq, Option.getD_some]
      exact htrial
    · have hneeded := (hdropped.needed d hd).2 (k d - 1) (by omega)
      rw [hover, h.stops_without]
      exact hneeded.2
  · exact hstays

/-! ### The node -/

/-- What the two loops drop from a trip, and what they leave of its stays. -/
theorem Trip.trimmed (h : Trip env s places order legs) (hplan : PlannedOnce env s) :
    ∃ (k : Int → Nat) (stay : Int → Int) (dropped : List Int),
      trimDays env s (s.visitOrder.getD []) (overDays s) (staysOf s) [] = .ok (stay, dropped) ∧
      Dropped env s k dropped ∧
      (∀ pid, stay pid = staysOf s pid ∨ stay pid = 10 ∧ 10 < staysOf s pid) ∧
      ∀ d ∉ overDays s, ∀ pid ∈ stopsOn s d, stay pid = staysOf s pid := by
  have hstops : ∀ d, dayOrderOf s order [] d = stopsOn s d := by
    intro d
    rw [stopsOn, h.order_eq, Option.getD_some]
  obtain ⟨k, stay, dropped, htrim, hmem, hcut, hkept, hneeded⟩ :=
    trimDays_spec h hplan.nodup fun d hd => by
      rw [hstops]
      exact hplan.stops_ne_nil h.toRouted hd
  simp only [hstops, List.not_mem_nil, false_or] at hmem hcut hkept hneeded
  refine ⟨k, stay, dropped, ?_, ⟨hmem, hneeded⟩, fun pid => ?_, fun d hd pid hpid => ?_⟩
  · rw [h.order_eq]
    exact htrim
  · -- a stay is cut on an overfull day only, and not below the floor
    by_cases hover : ∃ d ∈ overDays s, pid ∈ stopsOn s d
    · have hmin := hcut pid hover
      unfold floorMin at hmin
      omega
    · left
      exact hkept pid fun d hd hpid => hover ⟨d, hd, hpid⟩
  · -- a stop is on one day, so no other day cuts its stay
    refine hkept pid fun d' hd' => ?_
    have hne : d ≠ d' := fun heq => hd (heq ▸ hd')
    exact not_mem_dayOrderOf hne hpid

/-- A trip that may be trimmed is shortened as little as need be, and fits or is
    refused. -/
theorem trimTimeline_fits (h : Trip env s places order legs) (hplan : PlannedOnce env s)
    (hok : s.failed = false) : ∃ s', trimTimeline env s (overDays s) = .ok s' ∧ Fits env s s' := by
  obtain ⟨k, stay, dropped, htrim, hdropped, hstay, hsame⟩ := h.trimmed hplan
  obtain ⟨s₁, legs', hdrop, hs₁⟩ := h.drop dropped
  -- the node lays the days out again on the trip that is left
  have hlayout : planTimelineWith env s₁ stay ((s.visitOrder.getD []).filter (· ∉ dropped)) dropped =
      .ok (planTimeline env.settings s₁ stay) := by
    rw [h.order_eq, Option.getD_some]
    exact planTimelineWith_routed hs₁.toRouted fun pid hpid =>
      of_decide_eq_true (List.mem_filter.mp hpid).2
  have hold : s₁.timeline = s.timeline := by rw [dropPlaces_frame hdrop]
  have hokay : s₁.failed = false := by rw [dropPlaces_frame hdrop]; exact hok
  have hrun : trimTimeline env s (overDays s) =
      if (planTimeline env.settings s₁ stay).overflowed ≠ [] then
        .ok (AgentState.fail { s₁ with
            timelineStatus := some .unverified
            timelineOverflowDays := some (planTimeline env.settings s₁ stay).overflowed }
          "verified places exceed the activity time budget" "invalid_request")
      else
        .ok (AgentState.addWarning { s₁ with
            timeline := some (withSources (oldStaySource s₁)
              (planTimeline env.settings s₁ stay).timeline)
            timelineStatus := some .trimmed
            timelineOverflowDays := none } warnTrimmed) := by
    unfold trimTimeline
    refine (bind_of_eq_ok htrim _).trans ?_
    refine (bind_of_eq_ok hdrop _).trans ?_
    refine (bind_of_eq_ok hlayout _).trans rfl
  rw [hrun]
  split
  · -- the times stay what they were
    refine ⟨_, rfl, k, h.shortened hdropped hs₁ rfl rfl fun pid slot hslot => ?_, Or.inl ⟨rfl, rfl⟩⟩
    change (s₁.timeline.getD []).lookup pid = some slot at hslot
    rw [hold] at hslot
    rw [staysOf, hslot]
    exact Or.inl rfl
  · -- no day runs over any more
    rename_i hfits
    refine ⟨_, rfl, k, h.shortened hdropped hs₁ rfl rfl fun pid slot hslot => ?_, Or.inr ⟨hokay,
      ⟨stay, oldStaySource s₁, ?_, ?_⟩, fun d hd pid hpid => ?_⟩⟩
    · change (withSources (oldStaySource s₁) (planTimeline env.settings s₁ stay).timeline).lookup
        pid = some slot at hslot
      rw [lookup_withSources, Option.map_eq_some_iff] at hslot
      obtain ⟨slot', hslot', rfl⟩ := hslot
      rcases DayPlan.lookup_layOut hslot' with hstays | hnone
      · rw [show slot'.stayMinutes = stay pid from hstays]
        exact hstay pid
      · cases hnone
    · exact (congrArg Layout.overflowed (planTimeline_congr rfl rfl rfl rfl)).trans
        (not_not.mp hfits)
    · exact congrArg (fun layout : Layout => some (withSources _ layout.timeline))
        (planTimeline_congr rfl rfl rfl rfl)
    · -- the stops of the day, their stays and the ways between them are what they were
      obtain ⟨v, hv, rfl, source, hslot⟩ := hplan.slot h.toRouted hpid
      refine ⟨_, hslot, ?_⟩
      have hstops : dayOrderOf s₁ (order.filter (· ∉ dropped)) [] d = stopsOn s d := by
        rw [h.dayOrderOf_derived hs₁, h.stops_without, hdropped.stops_filter, if_neg hd]
      have hv' : v ∈ dayVisits env s stay (dayOrderOf s₁ (order.filter (· ∉ dropped)) [] d) := by
        rw [hstops, dayVisits_congr (hsame d hd)]
        exact hv
      have hsource : oldStaySource s₁ v.place = source := by
        rw [oldStaySource, hold, hslot]
        rfl
      change (withSources (oldStaySource s₁) (planTimeline env.settings s₁ stay).timeline).lookup
        v.place = _
      rw [lookup_withSources, lookup_planTimeline hs₁ hv', Option.map_some, hsource]

/-- Where nothing is trimmed, nothing is dropped. -/
theorem shortened_zero {s' : AgentState} (hplaces : s'.places = s.places)
    (horder : s'.visitOrder = s.visitOrder) (htimeline : s'.timeline = s.timeline) :
    Shortened env s s' fun _ => 0 := by
  -- no stop of any day goes
  have hnone : ∀ d, lastUnpinnedOn s d 0 = [] := fun d => List.rtake_zero _
  have hstays : ∀ pid, Stays s (fun _ => 0) pid := by
    intro pid d _
    rw [hnone]
    exact List.not_mem_nil
  have hstops : ∀ d, stopsOn s' d = stopsOn s d := by
    intro d
    unfold stopsOn dayOrderOf AgentState.placeById
    rw [hplaces, horder]
  constructor
  · rw [hplaces]
    exact (List.filter_eq_self.mpr fun p _ => decide_eq_true (hstays _)).symm
  · rw [horder]
    exact (List.filter_eq_self.mpr fun p _ => decide_eq_true (hstays _)).symm
  · intro p hp cid _ _
    rw [hplaces]
    exact hp
  · intro d _
    rw [hstops, hnone]
    exact (List.filter_eq_self.mpr fun _ _ => decide_eq_true List.not_mem_nil).symm
  · intro d _
    exact hstops d
  · intro d _
    refine ⟨Nat.zero_le _, ?_⟩
    rw [hstops]
    exact min_le_right _ _
  · intro d _ hpos
    exact absurd hpos (lt_irrefl _)
  · -- and no stay is cut
    intro pid slot hslot
    rw [htimeline] at hslot
    rw [staysOf, hslot]
    exact Or.inl rfl

/-- What the node makes of a trip with a day that runs over. -/
theorem fitTimeBudget_fits (h : Trip env s places order legs) (hplan : PlannedOnce env s)
    (hok : s.failed = false) (henabled : env.settings.timelineEnabled = true)
    (hover : overDays s ≠ []) : ∃ s', fitTimeBudget env s = .ok s' ∧ Fits env s s' := by
  have hruns : ¬ (env.settings.timelineEnabled = false ∨ s.timelineOverflowDays.getD [] = []) := by
    rintro (hdisabled | hnone)
    · exact absurd (henabled.symm.trans hdisabled) (by decide)
    · exact hover hnone
  unfold fitTimeBudget
  dsimp only
  rw [if_neg (by simp [hok]), if_neg hruns]
  split
  · -- what the user picked is not taken away
    exact ⟨_, rfl, _, shortened_zero rfl rfl rfl, Or.inl ⟨rfl, rfl⟩⟩
  · exact trimTimeline_fits h hplan hok

/-! ### Trips that come to the node -/

/-- What comes to the node with a day that runs over. -/
theorem trip_of_comes (hgc : GreatCircle env.platform)
    (hs : Comes env jobId req .fitTimeBudget s) (hover : overDays s ≠ []) :
    s.failed = false ∧ env.settings.timelineEnabled = true ∧ PlannedOnce env s ∧
      ∃ places order legs, Trip env s places order legs := by
  obtain ⟨j, hj, rfl⟩ := hs
  obtain ⟨j₅, h₅, htime, -⟩ := reaches_pred (n := .buildTimeline) hj (by decide)
    (by intro k; cases k <;> decide)
  obtain ⟨j₄, h₄, hroute, hedge⟩ := reaches_pred (n := .recommendRoute) h₅ (by decide)
    (by intro k; cases k <;> decide)
  -- a failed route would have ended the run
  have hrouted : j₅.state.failed = false := by
    cases hfailed : j₅.state.failed with
    | false => rfl
    | true =>
      simp only [edge, routeAfter, hfailed, if_true, Option.some.injEq, reduceCtorEq] at hedge
  have hroute := ofState_ok hroute
  have htime := ofState_ok htime
  have hdrafted := unfailed_before env .recommendRoute rfl hroute hrouted
  have hdraft := drafted_of_reaches h₄
  obtain ⟨places, legs, -, -, hs₅⟩ := hdraft.routed hdrafted hroute hrouted
  have hs := hs₅.buildTimeline htime
  have hok : j.state.failed = false := by
    rw [buildTimeline_frame htime]
    exact hrouted
  rcases buildTimeline_cases htime (untimed_of_reaches (by decide) h₅) with
    ⟨-, -, hnone⟩ | ⟨resp, dwells, henabled, -, -, -, htimes, hdaysOver⟩
  · -- without times no day is overfull
    rw [overDays, hnone] at hover
    exact absurd rfl hover
  · exact ⟨hok, henabled, ⟨_, _, htimes, hdaysOver⟩, places, _, legs, ⟨hs, hgc⟩⟩

/-- Whatever trip comes to the node with a day that runs over: it does not
    raise, and the trip is shortened as little as need be, and fits or is
    refused. -/
theorem overfull_trip_fits (hgc : GreatCircle env.platform)
    (hs : Comes env jobId req .fitTimeBudget s) (hover : overDays s ≠ []) :
    ∃ s', fitTimeBudget env s = .ok s' ∧ Fits env s s' := by
  obtain ⟨hok, henabled, hplan, places, order, legs, htrip⟩ := trip_of_comes hgc hs hover
  exact fitTimeBudget_fits htrip hplan hok henabled hover

/-- All places are at one point. -/
theorem samplePlatform_greatCircle : GreatCircle samplePlatform where
  length _ _ _ _ _ _ _ _ := ⟨0, rfl, le_rfl⟩

/-- The hub knows three places, each good for an hour, and the model picks them all. -/
def crowdedEnv : Env :=
  let names := ["a", "b", "c"]
  { sampleEnv with
    hub := { sampleHub with
      searchPlaces := fun _ _ _ _ _ => .ok (.obj [("places", .arr (names.map sampleCandidate))])
      estimateDwell := fun _ => .ok (.obj [("estimates", .arr (names.map fun cid =>
        .obj [("content_id", .str cid), ("stay_minutes", .int 60)]))]) }
    gemini := { sampleGemini with
      selection := fun _ _ _ => ([], .ok ⟨(List.range 3).map fun (i : Nat) =>
        sampleSelection i (Int.natCast_nonneg i)⟩) } }

/-- The first minutes of the sample trip. -/
def crowdedTrip (minutes : Nat) (h : minutes < 60) : AgentRequest :=
  { sampleTrip .init with
    date := { sampleDates with
      timeEnd := { sampleDates.timeStart with minute := minutes, minute_lt := h } } }

/-- Three places are too many for forty minutes, of which two short stays and the way
    between them take thirty, and one is dropped. -/
theorem overfull_trip_fits_crowded : ∃ s s',
    Comes crowdedEnv "j" (crowdedTrip 40 (by decide)) .fitTimeBudget s ∧
    fitTimeBudget crowdedEnv s = .ok s' ∧ Fits crowdedEnv s s' ∧
      (s.places.getD []).length = 3 ∧ (s'.places.getD []).length = 2 := by
  let count (s : AgentState) := (s.places.getD []).length
  have hat : ((agentGraph crowdedEnv).stateAt .fitTimeBudget 12 .parseInput
      (Job.start "j" (crowdedTrip 40 (by decide)))).map (fun j => (overDays j.state, count j.state,
        (fitTimeBudget crowdedEnv j.state).toOption.map count)) = some ([1], 3, some 2) := by
    decide +kernel
  obtain ⟨j, hj, hcounts⟩ := Option.map_eq_some_iff.mp hat
  simp only [Prod.mk.injEq] at hcounts
  obtain ⟨hover, hbefore, hafter⟩ := hcounts
  -- three places come to the node, and their day runs over
  have hcomes : Comes crowdedEnv "j" (crowdedTrip 40 (by decide)) .fitTimeBudget j.state :=
    ⟨j, StateGraph.reaches_of_stateAt .entry hj, rfl⟩
  obtain ⟨s', hrun, hfits⟩ := overfull_trip_fits samplePlatform_greatCircle hcomes
    (by rw [hover]; decide)
  rw [hrun] at hafter
  exact ⟨_, s', hcomes, hrun, hfits, hbefore, Option.some.inj hafter⟩

end MapServiceAgent.Native

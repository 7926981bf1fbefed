import MapServiceAgent.ForStd.Except
import MapServiceAgent.ForStd.Timetable
import MapServiceAgent.Native.Scorer
import MapServiceAgent.Native.TimelineNodes
import MapServiceAgent.Spec.RouteCorrect

/-!
# The judge accepts timetables that can be kept

`score_timeline` reads the times back from the message. Where the message shows
the visits of a timetable that can be kept, it finds nothing wrong.

## Key results

- `minutes_minutesToHhmm`: a written time reads back
- `TimelineJudge.score_onTime`: the loop finds no problem
- `scoreTimeline_onTime`: nor does the judge
-/

namespace MapServiceAgent.Native

variable {pf : Platform} {judge : TimelineJudge}

/-! ### Times -/

/-- `HH:MM`. -/
def Time.hhmm (t : Time) : String := padNat 2 t.hour ++ ":" ++ padNat 2 t.minute

/-- Two digits read back. -/
theorem intOfStr_padNat (pf : Platform) {n : Nat} (h : n < 60) :
    ∃ a b, (padNat 2 n).toList = [a, b] ∧ pf.intOfStr (String.ofList [a, b]) = some (n : Int) := by
  have hlen : (padNat 2 n).toList.length = 2 := length_padNat 2 (by decide) (by omega)
  obtain ⟨a, b, hab⟩ := List.length_eq_two.mp hlen
  exact ⟨a, b, hab, pf.intOfStr_digits _ _ (hab ▸ digits?_padNat 2 n)⟩

/-- A written time of day is read as its minutes. -/
theorem minutes_padNat {h m : Nat} (hh : h < 24) (hm : m < 60) :
    minutes pf (.str (padNat 2 h ++ ":" ++ padNat 2 m)) = some (h * 60 + m : Int) := by
  -- two digits, a colon, two digits
  obtain ⟨a, b, hab, hhour⟩ := intOfStr_padNat pf (n := h) (by omega)
  obtain ⟨c, d, hcd, hminute⟩ := intOfStr_padNat pf hm
  have hchars : (padNat 2 h ++ ":" ++ padNat 2 m).toList = [a, b, ':', c, d] := by
    rw [String.toList_append, String.toList_append, hab, hcd]
    rfl
  unfold minutes
  simp only [hchars, hhour, hminute]
  rw [if_pos (by omega)]

/-- So is the time of a request. -/
theorem minutes_hhmm (t : Time) : minutes pf (.str t.hhmm) = some t.minuteOfDay :=
  minutes_padNat t.hour_lt t.minute_lt

/-- A written time reads back. -/
theorem minutes_minutesToHhmm (pf : Platform) {m : Int} (h : 0 ≤ m) (hle : m ≤ 1439) :
    minutes pf (.str (minutesToHhmm m)) = some m := by
  unfold minutesToHhmm
  dsimp only
  rw [minutes_padNat (by omega) (by omega)]
  congr 1
  omega

/-! ### One visit -/

/-- The place shows the visit. -/
structure ShowsVisit (v : Visit Place) : Prop where
  start : v.place.visitStart = some (minutesToHhmm v.start)
  stop : v.place.visitEnd = some (minutesToHhmm v.stop)
  stay : v.place.stayMinutes = some v.stay

/-- The judge reads the start that was published. -/
theorem get_visitStart {p : Place} {t : String} (h : p.visitStart = some t) :
    Json.get "visit_start" (.obj p.jsonFields) = .ok (.str t) := by
  change Except.ok (jsonOption Json.str p.visitStart) = _
  rw [h]
  rfl

/-- And the end. -/
theorem get_visitEnd {p : Place} {t : String} (h : p.visitEnd = some t) :
    Json.get "visit_end" (.obj p.jsonFields) = .ok (.str t) := by
  change Except.ok (jsonOption Json.str p.visitEnd) = _
  rw [h]
  rfl

/-- And the stay. -/
theorem get_stayMinutes {p : Place} {m : Int} (h : p.stayMinutes = some m) :
    Json.get "stay_minutes" (.obj p.jsonFields) = .ok (.int m) := by
  change Except.ok (jsonOption Json.int p.stayMinutes) = _
  rw [h]
  rfl

/-- An integer as a key. -/
def intKey (d : Int) : PyKey := .num (.fin d)

/-- Different numbers are different keys. -/
theorem intKey_inj {a b : Int} (h : intKey a = intKey b) : a = b :=
  Int.cast_injective (PyFloat.fin.inj (PyKey.num.inj h))

/-- The last visit of the same day, and the way from it, leave time for this one. -/
def TimelineJudge.Reached (judge : TimelineJudge) (previous : Previous) (v : Visit Place) : Prop :=
  ∀ prev prevEnd, previous.lookup (intKey v.place.day) = some (prev, prevEnd) →
    ∃ t, judge.travel prev (.int v.place.placeId) = .ok (.int t) ∧ 0 ≤ t ∧ 0 ≤ prevEnd ∧
      prevEnd + t ≤ v.start

/-- There is no problem where the travel fits between two visits. -/
theorem travelProblem_ok {day : String} {start prevEnd t : Int} (ht : 0 ≤ t) (hle : t ≤ 1439)
    (h : prevEnd + t ≤ start) : travelProblem day start prevEnd (.int t) = .ok [] := by
  have hfloat : floatOfInt t = .ok (.fin t) := by
    have hlimit : (1440 : Int) ≤ doubleLimit := by decide +kernel
    rw [floatOfInt, if_pos (by omega)]
  simp only [travelProblem, hfloat, if_neg (not_lt.mpr ht), if_neg (not_lt.mpr h)]
  rfl

/-- A visit in the window that was reached in time adds no problem. -/
theorem TimelineJudge.score_cons {lo hi : Int} (hlo : judge.lo = some lo) (hhi : judge.hi = some hi)
    (hzero : 0 ≤ lo) (hday : hi ≤ 1439) {v : Visit Place} (hshows : ShowsVisit v) (hstay : 0 ≤ v.stay)
    (hstart : lo ≤ v.start) (hstop : v.stop ≤ hi) {previous : Previous}
    (hreached : judge.Reached previous v) (problems : List String) (ps : List Json) :
    judge.score previous problems (.obj v.place.jsonFields :: ps) =
      judge.score (dictSet previous (intKey v.place.day) (.int v.place.placeId, v.stop))
        problems ps := by
  have hle : v.start ≤ v.stop := by
    unfold Visit.stop
    omega
  -- the visit itself is in order
  have hvisit : judge.visitProblems (pyStr judge.platform (.int v.place.day)) v.start v.stop
      (.int v.stay) = [] := by
    have hdiff : v.stop - v.start = v.stay := by
      unfold Visit.stop
      omega
    simp [visitProblems, hlo, hhi, hdiff, not_lt.mpr hle, not_lt.mpr hstart, not_lt.mpr hstop,
      not_lt.mpr hstay]
  have hgetStart := get_visitStart hshows.start
  have hgetStop := get_visitEnd hshows.stop
  have hgetStay := get_stayMinutes hshows.stay
  have hreadStart := minutes_minutesToHhmm judge.platform (m := v.start) (by omega) (by omega)
  have hreadStop := minutes_minutesToHhmm judge.platform (m := v.stop) (by omega) (by omega)
  have hgetDay : Json.get "day" (.obj v.place.jsonFields) = .ok (.int v.place.day) := rfl
  have hgetId : Json.get "place_id" (.obj v.place.jsonFields) = .ok (.int v.place.placeId) := rfl
  have hkey : Json.key (.int v.place.day) = .ok (intKey v.place.day) := rfl
  rw [TimelineJudge.score]
  simp only [hgetDay, hgetStart, hgetStop, hgetStay, hgetId, hkey, bind, Except.bind, hreadStart,
    hreadStop, hvisit]
  -- the way from the last visit of the day, if there was one
  cases hlast : previous.lookup (intKey v.place.day) with
  | none => simp only [List.append_nil]
  | some last =>
    obtain ⟨prev, prevEnd⟩ := last
    obtain ⟨t, htravel, ht, hprev, hmoved⟩ := hreached prev prevEnd hlast
    simp only [htravel, travelProblem_ok ht (by omega) hmoved, List.append_nil]

/-! ### All visits -/

variable {travel : Place → Place → Int} {lo hi : Int}

/-- The loop finds no problem with visits that are on time. -/
theorem TimelineJudge.score_onTime (judge : TimelineJudge) (hlo : judge.lo = some lo) (hhi : judge.hi = some hi)
    (hzero : 0 ≤ lo) (hday : hi ≤ 1439) {visits : List (Visit Place)}
    (hlegs : ∀ uv ∈ pairs visits, judge.travel (.int uv.1.place.placeId) (.int uv.2.place.placeId) =
      .ok (.int (travel uv.1.place uv.2.place)) ∧ 0 ≤ travel uv.1.place uv.2.place)
    (hshows : ∀ v ∈ visits, ShowsVisit v) (h : OnTime (·.day) travel lo hi visits) :
    judge.score [] [] (visits.map fun v => .obj v.place.jsonFields) = .ok [] := by
  -- no later day has been visited, and the first visit can be reached
  suffices hall : ∀ previous, (∀ v ∈ visits.head?, judge.Reached previous v ∧
      ∀ d, v.place.day < d → previous.lookup (intKey d) = none) →
      judge.score previous [] (visits.map fun v => .obj v.place.jsonFields) = .ok [] from
    hall [] fun v _ => ⟨fun _ _ h => (nomatch h), fun _ _ => rfl⟩
  induction visits with
  | nil => exact fun _ _ => rfl
  | cons v visits ih =>
    intro previous hprevious
    obtain ⟨⟨hstay, hstart, hstop⟩, hfollows, h⟩ := OnTime.cons_iff.mp h
    obtain ⟨hreached, hlater⟩ := hprevious v rfl
    obtain ⟨hshow, hshows⟩ := List.forall_mem_cons.mp hshows
    rw [List.map_cons, score_cons hlo hhi hzero hday hshow hstay hstart hstop hreached]
    refine ih (fun uv huv => hlegs uv (pairs_subset_cons _ _ huv)) hshows h _ fun w hw => ⟨?_, ?_⟩
    · -- the visit before was on an earlier day, or is the one just made
      intro prev prevEnd hlast
      obtain ⟨htravel, hnonneg⟩ := hlegs (v, w) (mem_pairs_cons hw)
      rcases hfollows w hw with hlt | ⟨hsame, hmoved⟩
      · have hne : intKey w.place.day ≠ intKey v.place.day := fun h => hlt.ne' (intKey_inj h)
        rw [lookup_dictSet_ne hne, hlater _ hlt] at hlast
        exact nomatch hlast
      · rw [show w.place.day = v.place.day from hsame.symm, lookup_dictSet_self] at hlast
        cases hlast
        exact ⟨_, htravel, hnonneg, by unfold Visit.stop; omega, hmoved⟩
    · -- later days are still untouched
      intro d hd
      have hlt : v.place.day < d := by
        rcases hfollows w hw with hlt | ⟨hsame, -⟩
        · exact hlt.trans hd
        · exact hsame.trans_lt hd
      have hne : intKey d ≠ intKey v.place.day := fun h => hlt.ne' (intKey_inj h)
      rw [lookup_dictSet_ne hne, hlater d hlt]

/-! ### Legs -/

/-- The published legs are found by their ends. -/
theorem legsByEnds_eq (legs : List Leg) :
    legsByEnds (legs.map fun l => .obj l.jsonFields) = legs.map fun l => (l.ends, l.jsonFields) := by
  rw [legsByEnds, List.filterMap_map, ← List.filterMap_eq_map]
  rfl

/-- The judge finds the minutes of a leg between the places it joins. -/
theorem TimelineJudge.travel_leg (judge : TimelineJudge) {legs : List Leg}
    (hjudge : judge.legs = legsByEnds (legs.map fun l => .obj l.jsonFields))
    (hnodup : (legs.map Leg.ends).Nodup) {leg : Leg} (hleg : leg ∈ legs) :
    judge.travel (.int leg.fromPlaceId) (.int leg.toPlaceId) =
      .ok (.int leg.estimatedDurationMin) := by
  -- legs are told apart by both their ends
  have hinj : Function.Injective fun e : Int × Int => (intKey e.1, intKey e.2) := fun a b h =>
    Prod.ext (intKey_inj (Prod.mk.inj h).1) (intKey_inj (Prod.mk.inj h).2)
  have hkeys : ((legs.map fun l => (l.ends, l.jsonFields)).map fun x =>
      (intKey x.1.1, intKey x.1.2)).Nodup := by
    have h := hnodup.map hinj
    rwa [List.map_map] at h ⊢
  have hfound := keyedBy_of_mem hkeys
    (List.mem_map_of_mem (f := fun l : Leg => (l.ends, l.jsonFields)) hleg)
  unfold travel
  rw [hjudge, legsByEnds_eq]
  exact congrArg (fun x => Except.ok (((Option.map (·.2) x).getD []).lookup
    "estimated_duration_min" |>.getD (.int 0))) hfound

/-- The planner reads the same minutes off the visit order. -/
theorem legMinutes_leg {places : List Place} {order : List Int} {legs : List Leg}
    (h : Itinerary places order legs) {a b : Int} (hab : (a, b) ∈ pairs order) :
    ∃ leg ∈ legs, leg.ends = (a, b) ∧ legMinutes legs order a = leg.estimatedDurationMin := by
  obtain ⟨i, hi⟩ := List.mem_iff_getElem?.mp hab
  have hlen := (List.getElem?_eq_some_iff.mp hi).1
  rw [length_pairs] at hlen
  have hpair := pairs_getElem order i (by omega)
  obtain ⟨rfl, rfl⟩ := Prod.mk.inj (Option.some.inj (hi.symm.trans hpair))
  rw [← h.legs_ends, List.getElem?_map, Option.map_eq_some_iff] at hi
  obtain ⟨leg, hleg, hends⟩ := hi
  refine ⟨leg, List.mem_of_getElem? hleg, hends, ?_⟩
  -- one leg leaves each place
  have hkeys : ((order.zip legs).map Prod.fst).Nodup :=
    (map_fst_zip_sublist order legs).nodup h.order_nodup
  have hmem : (order[i], leg) ∈ order.zip legs :=
    List.mem_of_getElem? (List.getElem?_zip_eq_some.mpr ⟨List.getElem?_eq_getElem _, hleg⟩)
  have hfound := keyedBy_of_mem hkeys hmem
  rw [legMinutes, hfound]
  exact max_eq_right leg.duration_valid

/-! ### The message -/

/-- The published places are found by their numbers. -/
theorem placesById_eq (places : List Place) :
    placesById (places.map fun x => .obj x.jsonFields) =
      .ok (places.map fun x => (intKey x.placeId, .obj x.jsonFields)) := by
  refine mapM_eq_ok.mpr ?_
  induction places with
  | nil => exact .nil
  | cons x rest ih => exact .cons rfl ih

/-- The places along the visit order are those of the visits. -/
theorem orderedPlaces_eq {places : List Place} (hnodup : (places.map (·.placeId)).Nodup)
    {visits : List (Visit Place)} (hperm : (visits.map (·.place)).Perm places) :
    orderedPlaces (places.map fun x => (intKey x.placeId, Json.obj x.jsonFields))
        (places.map fun x => Json.obj x.jsonFields)
        (.arr ((visits.map (·.place.placeId)).map .int)) =
      visits.map fun v => Json.obj v.place.jsonFields := by
  -- the judge finds each place under its own number
  have hkeys : ((places.map fun x => (intKey x.placeId, Json.obj x.jsonFields)).map
      (·.1)).Nodup := by
    have h := hnodup.map fun _ _ h => intKey_inj h
    rwa [List.map_map] at h ⊢
  rw [orderedPlaces, List.map_map, List.filterMap_map]
  calc _ = visits.filterMap (some ∘ fun v => Json.obj v.place.jsonFields) := by
        refine List.filterMap_congr fun v hv => ?_
        have hmem := hperm.mem_iff.mp (List.mem_map_of_mem hv)
        have hfound := keyedBy_of_mem hkeys (List.mem_map_of_mem
          (f := fun x : Place => (intKey x.placeId, Json.obj x.jsonFields)) hmem)
        exact congrArg (Option.map (·.2)) hfound
    _ = visits.map fun v => Json.obj v.place.jsonFields := by rw [List.filterMap_eq_map]

/-- A written time is not blank. -/
theorem minutesToHhmm_ne_empty (m : Int) : minutesToHhmm m ≠ "" := by
  intro h
  have hlen := congrArg (fun s : String => s.toList.length) h
  simp [minutesToHhmm, String.toList_append] at hlen

/-- Where the first place shows its visit, there are times to judge. -/
theorem anyTimed_cons {v : Visit Place} (h : ShowsVisit v) (ps : List Json) :
    anyTimed (.obj v.place.jsonFields :: ps) = .ok true := by
  have htruthy : (Json.str (minutesToHhmm v.start)).truthy = true := by
    simp [Json.truthy, minutesToHhmm_ne_empty]
  simp only [anyTimed, get_visitStart h.start, bind, Except.bind, htruthy, if_true]
  rfl

/-- The judge accepts a message that shows visits that are on time. -/
theorem scoreTimeline_onTime {p : JobDonePayload} {places : List Place} {order : List Int}
    {legs : List Leg} (hplaces : p.places = some places) (horder : p.visitOrder = some order)
    (hlegs : p.legs = some legs) (hitinerary : Itinerary places order legs)
    {visits : List (Visit Place)} (hne : visits ≠ [])
    (hperm : (visits.map (·.place)).Perm places) (hids : visits.map (·.place.placeId) = order)
    (hshows : ∀ v ∈ visits, ShowsVisit v) {start stop : Time}
    (hontime : OnTime (·.day) (fun x _ => legMinutes legs order x.placeId) start.minuteOfDay
      stop.minuteOfDay visits) :
    scoreTimeline pf p.jsonFields (.str start.hhmm) (.str stop.hhmm) true = .ok ⟨true, true, []⟩ := by
  have hgetPlaces : dictGet p.jsonFields "places" =
      .arr (places.map fun x => .obj x.jsonFields) := by
    change jsonOption _ p.places = _
    rw [hplaces]
    rfl
  have hgetOrder : dictGet p.jsonFields "visit_order" = .arr (order.map .int) := by
    change jsonOption _ p.visitOrder = _
    rw [horder]
    rfl
  have hgetLegs : dictGet p.jsonFields "legs" = .arr (legs.map fun l => .obj l.jsonFields) := by
    change jsonOption _ p.legs = _
    rw [hlegs]
    rfl
  -- a visit is shown, so the message has times to judge
  have htimed : anyTimed (visits.map fun v => .obj v.place.jsonFields) = .ok true := by
    cases visits with
    | nil => exact absurd rfl hne
    | cons v rest => exact anyTimed_cons (hshows v List.mem_cons_self) _
  -- the judge finds nothing in visits that are on time
  have hscore := TimelineJudge.score_onTime ⟨pf, some start.minuteOfDay, some stop.minuteOfDay,
    legsByEnds (legs.map fun l => .obj l.jsonFields)⟩ rfl rfl start.minuteOfDay_nonneg
    (by have := stop.minuteOfDay_lt; omega) (fun uv huv => ?_) hshows hontime
  · unfold scoreTimeline
    subst hids
    simp only [hgetPlaces, hgetOrder, hgetLegs, Json.iter_orElse_arr, placesById_eq, bind, Except.bind,
      orderedPlaces_eq hitinerary.ids_nodup hperm, htimed, minutes_hhmm, hscore]
    rfl
  · -- the legs of the message are those the planner counted
    have hpair : (uv.1.place.placeId, uv.2.place.placeId) ∈ pairs order := by
      rw [← hids, pairs_map]
      exact List.mem_map_of_mem huv
    obtain ⟨leg, hleg, hends, hminutes⟩ := legMinutes_leg hitinerary hpair
    have htravel := TimelineJudge.travel_leg ⟨pf, some start.minuteOfDay,
      some stop.minuteOfDay, legsByEnds (legs.map fun l => .obj l.jsonFields)⟩ rfl
      (hitinerary.legs_ends ▸ nodup_pairs hitinerary.order_nodup) hleg
    obtain ⟨hfrom, hto⟩ := Prod.mk.inj hends
    rw [hminutes]
    exact ⟨hfrom ▸ hto ▸ htravel, leg.duration_valid⟩

end MapServiceAgent.Native

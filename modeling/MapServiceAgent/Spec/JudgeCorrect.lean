import MapServiceAgent.Spec.EvalCorrect
import MapServiceAgent.Spec.GivenRouteCorrect
import MapServiceAgent.Spec.ProvenanceCorrect
import MapServiceAgent.Spec.RouteScoreCorrect
import MapServiceAgent.Spec.TimelineCorrect

/-!
# The judge and the pipeline

What the evaluation asks of a message, and what the pipeline promises of the one
it publishes, are not quite the same. Here is the difference: a published result
meets the standard unless a name is blank, the times are not vouched for, a place
of a kept route goes by another name than the user wrote, or the places of a day
lie too far apart.

## Key results

- `scoreSchema_published`, `scoreGrounded_published`, `scoreRoute_published`,
  `scoreTimeline_untimed`, `scoreRules_published`, `breaksOrder_published`: the
  axes, one by one
- `DoneRun.untimed`: times that are not vouched for are not shown
- `judge_agrees`: when a published result meets the standard
-/

namespace MapServiceAgent.Native

variable {env : Env} {jobId : String} {req : AgentRequest} {s s' : AgentState}
  {pf : Platform} {p : JobDonePayload} {places : List Place}

/-! ### The fields of a message -/

/-- The judge reads the status that was published. -/
theorem dictGet_status (p : JobDonePayload) :
    dictGet p.jsonFields "status" = .str p.status.value := rfl

/-- And the places. -/
theorem dictGet_places (h : p.places = some places) :
    dictGet p.jsonFields "places" = .arr (places.map fun x => .obj x.jsonFields) := by
  change jsonOption _ p.places = _
  rw [h]
  rfl

/-- And the order. -/
theorem dictGet_order {order : List Int} (h : p.visitOrder = some order) :
    dictGet p.jsonFields "visit_order" = .arr (order.map .int) := by
  change jsonOption _ p.visitOrder = _
  rw [h]
  rfl

/-- And the legs. -/
theorem dictGet_legs {legs : List Leg} (h : p.legs = some legs) :
    dictGet p.jsonFields "legs" = .arr (legs.map fun l => .obj l.jsonFields) := by
  change jsonOption _ p.legs = _
  rw [h]
  rfl

/-- Where there are places, the judge goes through them. -/
theorem iter_places (h : p.places = some places) :
    ((dictGet p.jsonFields "places").orElse (.arr [])).iter =
      .ok (places.map fun x => .obj x.jsonFields) := by
  rw [dictGet_places h, Json.iter_orElse_arr]

/-! ### The form -/

/-- A place whose name can be shown. -/
def Showable (x : Place) : Prop := strip x.name ≠ ""

instance (x : Place) : Decidable (Showable x) := inferInstanceAs (Decidable (_ ≠ _))

/-- A coordinate in range is taken by the judge as by the schema of a place. -/
theorem checkCoord_jsonFloat {m : List (String × Json)} {key : String} {lo hi : ℚ} {x : PyFloat}
    (hm : dictGet m key = jsonFloat x) (hx : NumberIn lo hi x) : checkCoord m key lo hi = .ok () := by
  obtain ⟨q, rfl, hlo, hhi⟩ := hx
  unfold checkCoord
  rw [hm]
  exact if_pos ⟨hlo, hhi⟩

/-- The judge takes a place it can read, and no other. -/
theorem checkPlace_jsonFields {x : Place} (hid : 0 ≤ x.placeId) :
    (Showable x → checkPlace (.obj x.jsonFields) = .ok x.placeId) ∧
      (¬ Showable x → ∃ reason, checkPlace (.obj x.jsonFields) = .error (.rejected reason)) := by
  have hday : checkInt 1 "invalid day" (dictGet x.jsonFields "day") = .ok x.day :=
    if_neg (not_lt.mpr (Place.one_le_day x))
  have hpid : checkInt 0 "invalid place_id" (dictGet x.jsonFields "place_id") = .ok x.placeId :=
    if_neg (not_lt.mpr hid)
  have hname : checkName (dictGet x.jsonFields "name") =
      if strip x.name = "" then .error (.rejected "invalid name") else .ok () := rfl
  have hlat := checkCoord_jsonFloat (show dictGet x.jsonFields "lat" = _ from rfl) x.bounds.1
  have hlng := checkCoord_jsonFloat (show dictGet x.jsonFields "lng" = _ from rfl) x.bounds.2
  unfold checkPlace Showable
  dsimp only
  rw [hday, ok_bind, hpid, ok_bind, hname, hlat, hlng]
  -- of all the checks, only that of the name is still open
  by_cases hblank : strip x.name = ""
  · rw [if_pos hblank]
    exact ⟨fun h => absurd hblank h, fun _ => ⟨_, rfl⟩⟩
  · rw [if_neg hblank]
    exact ⟨fun _ => rfl, fun h => absurd hblank h⟩

/-- The first place the judge does not take is the end of it. -/
theorem mapM_checkPlace_unshowable (hids : ∀ x ∈ places, 0 ≤ x.placeId)
    (h : ¬ ∀ x ∈ places, Showable x) :
    ∃ reason, (places.map fun x => Json.obj x.jsonFields).mapM checkPlace =
      .error (.rejected reason) := by
  induction places with
  | nil => exact absurd (fun _ hx => (List.not_mem_nil hx).elim) h
  | cons x rest ih =>
    obtain ⟨hid, hids⟩ := List.forall_mem_cons.mp hids
    rw [List.map_cons, List.mapM_cons]
    by_cases hx : Showable x
    · have hrest : ¬ ∀ x ∈ rest, Showable x := fun hall => h (List.forall_mem_cons.mpr ⟨hx, hall⟩)
      obtain ⟨reason, hreason⟩ := ih hids hrest
      rw [(checkPlace_jsonFields hid).1 hx, ok_bind, hreason]
      exact ⟨reason, rfl⟩
    · obtain ⟨reason, hreason⟩ := (checkPlace_jsonFields hid).2 hx
      rw [hreason]
      exact ⟨reason, rfl⟩

/-- A message with places that have distinct numbers is of the right form if they
    can be read, and is refused otherwise. -/
theorem scoreSchema_published (pf : Platform) (hdone : p.status = .done)
    (hplaces : p.places = some places) (hne : places ≠ []) (hnodup : (places.map (·.placeId)).Nodup)
    (hids : ∀ x ∈ places, 0 ≤ x.placeId) :
    ((∀ x ∈ places, Showable x) → scoreSchema pf (.obj p.jsonFields) = .ok (.ok places.length)) ∧
      ((¬ ∀ x ∈ places, Showable x) →
        ∃ reason, scoreSchema pf (.obj p.jsonFields) = .ok (.failed reason)) := by
  obtain ⟨x, rest, rfl⟩ := List.exists_cons_of_ne_nil hne
  unfold scoreSchema
  dsimp only
  rw [dictGet_status, hdone, dictGet_places hplaces]
  refine ⟨fun h => ?_, fun h => ?_⟩
  · -- every place passes
    have hchecked : ((x :: rest).map fun x => Json.obj x.jsonFields).mapM checkPlace =
        .ok ((x :: rest).map (·.placeId)) :=
      mapM_eq_ok.mpr (List.forall₂_map_left_iff.mpr (List.forall₂_map_right_iff.mpr
        (List.forall₂_same.mpr fun y hy => (checkPlace_jsonFields (hids y hy)).1 (h y hy))))
    rw [List.map_cons] at hchecked hnodup
    simp only [JobStatus.value, Json.eqStr, beq_self_eq_true, if_true, List.map_cons, hchecked]
    rw [if_pos hnodup, List.length_cons, List.length_map, List.length_cons]
  · -- the first that does not is the reason
    obtain ⟨reason, hreason⟩ := mapM_checkPlace_unshowable hids h
    rw [List.map_cons] at hreason
    simp only [JobStatus.value, Json.eqStr, beq_self_eq_true, if_true, List.map_cons, hreason]
    exact ⟨reason, rfl⟩

/-! ### Sources -/

/-- A backed place has a source for the judge. -/
theorem hasSource_jsonFields {m : List (String × Json)} {x : Place} (h : Backs pf m x) :
    hasSource (.obj x.jsonFields) = .ok true := by
  obtain ⟨cid, -, hcid, hid⟩ := h.contentId
  obtain ⟨src, -, hsrc, hmem⟩ := h.source
  have hgrounded : dictGet x.jsonFields "grounded" = .bool true := congrArg Json.bool h.grounded
  have hsource : dictGet x.jsonFields "source" = .str src := by
    change jsonOption _ x.source = _
    rw [hsrc]
    rfl
  have hcontent : dictGet x.jsonFields "content_id" = .str cid := by
    change jsonOption _ x.contentId = _
    rw [hcid]
    rfl
  unfold hasSource
  dsimp only
  rw [hgrounded]
  dsimp only
  rw [hsource, hcontent]
  -- its identifier is neither blank nor a stub's
  obtain ⟨hblank, hstub⟩ := Bool.and_eq_true_iff.mp hid
  have hjudged : decide (src ∈ judgedSources) = true := decide_eq_true hmem
  simp only [Json.key, ok_bind, hjudged, hblank, hstub, Bool.and_true]
  rfl

/-- A check that every element passes, the list passes. -/
theorem allM_ok {ε α : Type} {f : α → Except ε Bool} {l : List α} (h : ∀ a ∈ l, f a = .ok true) :
    l.allM f = .ok true := by
  induction l with
  | nil => rfl
  | cons a l ih =>
    obtain ⟨ha, hl⟩ := List.forall_mem_cons.mp h
    rw [List.allM, ha]
    exact ih hl

/-- Backed places are grounded, and invented when the signal admits it. -/
theorem scoreGrounded_published (hplaces : p.places = some places) (hne : places ≠ [])
    (hbacked : ∀ x ∈ places, ∃ m, Backs pf m x) {training : Json} {admits : Bool}
    (htraining : admitsInvention training = .ok admits) :
    scoreGrounded (.obj p.jsonFields) training = .ok ⟨true, !admits, admits⟩ := by
  have hsourced : (places.map fun x => Json.obj x.jsonFields).allM hasSource = .ok true :=
    allM_ok (List.forall_mem_map.mpr fun x hx =>
      (hbacked x hx).elim fun _ h => hasSource_jsonFields h)
  obtain ⟨x, rest, rfl⟩ := List.exists_cons_of_ne_nil hne
  have hmessage : messagePlaces (.obj p.jsonFields) =
      .arr ((x :: rest).map fun x => .obj x.jsonFields) := dictGet_places hplaces
  have htruthy : (Json.arr ((x :: rest).map fun x => Json.obj x.jsonFields)).truthy = true := rfl
  unfold scoreGrounded
  rw [hmessage, if_pos htruthy]
  simp only [Json.iter, ok_bind, hsourced, htraining, Bool.true_and, Bool.not_not]
  rfl

/-! ### The route -/

/-- The judge finds nothing wrong with an itinerary. -/
theorem scoreRoute_published {order : List Int} {legs : List Leg} (hplaces : p.places = some places)
    (horder : p.visitOrder = some order) (hlegs : p.legs = some legs) (hne : places ≠ [])
    (h : Itinerary places order legs) :
    scoreRoute p.jsonFields = .ok ⟨true, true, some [], none⟩ := by
  -- the numbers are read from the places, the order from its list
  have hids : (places.map fun x => Json.obj x.jsonFields).mapM (·.get "place_id") =
      .ok ((places.map (·.placeId)).map .int) := by
    rw [List.map_map]
    exact mapM_eq_ok.mpr (List.forall₂_map_left_iff.mpr (List.forall₂_map_right_iff.mpr
      (List.forall₂_same.mpr fun _ _ => rfl)))
  have hints : (Json.arr (order.map .int)).ints? = some order := Json.ints?_eq_some_iff.mpr rfl
  have hlist : legList p.jsonFields = legs.map fun l => .obj l.jsonFields := by
    rw [legList, dictGet_legs hlegs]
  -- the order has one visit more than there are legs
  have hlength : legs.length + 1 = order.length := by
    have hpos : 0 < order.length := by
      rw [h.order_perm.length_eq, List.length_map]
      exact List.length_pos_of_ne_nil hne
    have hlen := congrArg List.length h.legs_ends
    rw [List.length_map, length_pairs] at hlen
    omega
  -- each leg stands between the two visits it joins
  have hjoined : Joined (legList p.jsonFields) order := by
    rw [hlist]
    refine (forall_mem_zip_pairs_iff (by rw [List.length_map]; exact hlength)).mp fun e he => ?_
    rw [← h.legs_ends, List.zip_map', List.mem_map] at he
    obtain ⟨leg, -, rfl⟩ := he
    have hself : ∀ i : Int, (Json.int i).eqInt i = true := beq_self_eq_true
    exact connects_iff.mpr ⟨leg.jsonFields, rfl, hself _, hself _⟩
  have hproblems : routeProblems ((places.map (·.placeId)).map .int) order
      (dictGet p.jsonFields "legs") = [] :=
    (routeProblems_eq_nil_iff h.ids_nodup (by simpa using hne)
      (.inr ⟨_, dictGet_legs hlegs⟩)).mpr ⟨h.order_perm, hjoined⟩
  unfold scoreRoute
  rw [bind_of_eq_ok (iter_places hplaces), bind_of_eq_ok hids, dictGet_order horder]
  dsimp only
  rw [hints]
  dsimp only
  rw [hproblems]
  rfl

/-! ### The times -/

/-- A place without times. -/
def Untimed (x : Place) : Prop := x.visitStart = none ∧ x.visitEnd = none

/-- What the judge orders are the places it was given. -/
theorem mem_orderedPlaces {byId : List (PyKey × Json)} {all : List Json} {order : Json} {v : Json}
    (hby : ∀ e ∈ byId, e.2 ∈ all) (h : v ∈ orderedPlaces byId all order) : v ∈ all := by
  unfold orderedPlaces at h
  split at h
  · obtain ⟨i, -, hi⟩ := List.mem_filterMap.mp h
    split at hi
    · obtain ⟨e, he, rfl⟩ := Option.map_eq_some_iff.mp hi
      exact hby e (keyedBy_some he).1
    · exact nomatch hi
  · exact h

/-- Among places without times none has one. -/
theorem anyTimed_untimed {l : List Json}
    (h : ∀ v ∈ l, ∃ x : Place, v = .obj x.jsonFields ∧ Untimed x) : anyTimed l = .ok false := by
  induction l with
  | nil => rfl
  | cons v l ih =>
    obtain ⟨⟨x, rfl, hstart, hend⟩, hl⟩ := List.forall_mem_cons.mp h
    have hgetStart : Json.get "visit_start" (.obj x.jsonFields) = .ok .null := by
      change Except.ok (jsonOption Json.str x.visitStart) = _
      rw [hstart]
      rfl
    have hgetEnd : Json.get "visit_end" (.obj x.jsonFields) = .ok .null := by
      change Except.ok (jsonOption Json.str x.visitEnd) = _
      rw [hend]
      rfl
    rw [anyTimed, hgetStart, hgetEnd]
    exact ih hl

/-- Without times there is nothing to judge, which is wrong where they are required. -/
theorem scoreTimeline_untimed (hplaces : p.places = some places) (h : ∀ x ∈ places, Untimed x)
    (timeStart timeEnd : Json) (required : Bool) :
    scoreTimeline pf p.jsonFields timeStart timeEnd required =
      .ok ⟨required, false, ["방문 시각 누락"]⟩ := by
  -- in whatever order, none of the places has a time
  have htimed : anyTimed (orderedPlaces
      (places.map fun x => (intKey x.placeId, Json.obj x.jsonFields))
      (places.map fun x => Json.obj x.jsonFields) (dictGet p.jsonFields "visit_order")) =
        .ok false := by
    refine anyTimed_untimed fun v hv => ?_
    have hmem := mem_orderedPlaces (List.forall_mem_map.mpr fun x hx =>
      List.mem_map_of_mem (f := fun x : Place => Json.obj x.jsonFields) hx) hv
    obtain ⟨x, hx, rfl⟩ := List.mem_map.mp hmem
    exact ⟨x, rfl, h x hx⟩
  unfold scoreTimeline
  rw [bind_of_eq_ok (iter_places hplaces), placesById_eq, ok_bind, bind_of_eq_ok htimed]
  rfl

/-! ### The distances -/

/-- The mean of a coordinate over the places of a day. -/
def dayMean (coord : Place → PyFloat) (places : List Place) (day : Int) : PyFloat :=
  let group := places.filter (·.day = day)
  ((group.map coord).foldl (· + ·) 0).scale (1 / group.length)

/-- How far a place lies from the centre of its day. -/
def kmFromCentre (pf : Platform) (places : List Place) (x : Place) : PyFloat :=
  pf.straightKm (dayMean (·.lat) places x.day) (dayMean (·.lng) places x.day) x.lat x.lng

/-- No place lies beyond the radius, if there is one. -/
def InRadius (pf : Platform) (maxRadiusKm : Json) (places : List Place) : Prop :=
  ∀ limit, maxRadiusKm.num? = some limit → ∀ x ∈ places, ¬ limit < kmFromCentre pf places x

/-- A coordinate that is written is read as the one the place has. -/
theorem floatItem_jsonFields (pf : Platform) (x : Place) :
    floatItem pf "lat" (.obj x.jsonFields) = .ok x.lat ∧
      floatItem pf "lng" (.obj x.jsonFields) = .ok x.lng := by
  have hshown : ∀ {lo hi : ℚ} {c : PyFloat}, NumberIn lo hi c → pyFloat pf (jsonFloat c) = .ok c := by
    rintro lo hi c ⟨q, rfl, -⟩
    rfl
  exact ⟨hshown x.bounds.1, hshown x.bounds.2⟩

/-- The mean of what is written is the mean of the coordinates. -/
theorem meanOf_jsonFields (pf : Platform) (key : String) (coord : Place → PyFloat)
    (h : ∀ x : Place, floatItem pf key (.obj x.jsonFields) = .ok (coord x)) (group : List Place) :
    meanOf pf key (group.map fun x => .obj x.jsonFields) =
      .ok (((group.map coord).foldl (· + ·) 0).scale (1 / group.length)) := by
  have hvalues : (group.map fun x => Json.obj x.jsonFields).mapM (floatItem pf key) =
      .ok (group.map coord) :=
    mapM_eq_ok.mpr (List.forall₂_map_left_iff.mpr (List.forall₂_map_right_iff.mpr
      (List.forall₂_same.mpr fun x _ => h x)))
  unfold meanOf
  rw [bind_of_eq_ok hvalues, List.length_map]
  rfl

/-- What is said of a place of the day. -/
def violationOf (pf : Platform) (limit : PyFloat) (places : List Place) (x : Place) :
    Option RuleViolation :=
  if limit < kmFromCentre pf places x then
    some ⟨x.day, .str x.name, (kmFromCentre pf places x).round2⟩
  else none

/-- A place breaks the rule where it lies farther from its day's centre than the limit. -/
theorem ruleViolation_jsonFields {maxRadiusKm : Json} {limit : PyFloat}
    (hlimit : maxRadiusKm.num? = some limit) (x : Place) :
    ruleViolation pf maxRadiusKm x.day (dayMean (·.lat) places x.day) (dayMean (·.lng) places x.day)
      (.obj x.jsonFields) = .ok (violationOf pf limit places x) := by
  obtain ⟨hlat, hlng⟩ := floatItem_jsonFields pf x
  have hexceeds : exceeds (kmFromCentre pf places x) maxRadiusKm =
      .ok (limit.ltb (kmFromCentre pf places x)) := by
    rw [exceeds, hlimit]
  unfold ruleViolation violationOf
  rw [bind_of_eq_ok hlat, bind_of_eq_ok hlng]
  refine (bind_of_eq_ok hexceeds _).trans ?_
  by_cases hfar : limit < kmFromCentre pf places x
  · rw [if_pos hfar]
    exact if_pos hfar
  · rw [if_neg hfar]
    exact if_neg hfar

/-- The places of a day that are found to lie too far away. -/
theorem dayViolations_jsonFields {maxRadiusKm : Json} {limit : PyFloat}
    (hlimit : maxRadiusKm.num? = some limit) (places : List Place) (day : Int) :
    dayViolations pf maxRadiusKm day
        ((places.filter (·.day = day)).map fun x => .obj x.jsonFields) =
      .ok ((places.filter (·.day = day)).filterMap (violationOf pf limit places)) := by
  -- the centre of the day is the mean of its places
  have hlat := meanOf_jsonFields pf "lat" (·.lat) (fun x => (floatItem_jsonFields pf x).1)
    (places.filter (·.day = day))
  have hlng := meanOf_jsonFields pf "lng" (·.lng) (fun x => (floatItem_jsonFields pf x).2)
    (places.filter (·.day = day))
  have hfound : ((places.filter (·.day = day)).map fun x => Json.obj x.jsonFields).mapM
      (ruleViolation pf maxRadiusKm day (dayMean (·.lat) places day) (dayMean (·.lng) places day)) =
      .ok ((places.filter (·.day = day)).map (violationOf pf limit places)) := by
    refine mapM_eq_ok.mpr (List.forall₂_map_left_iff.mpr (List.forall₂_map_right_iff.mpr
      (List.forall₂_same.mpr fun x hx => ?_)))
    obtain rfl : x.day = day := of_decide_eq_true (List.mem_filter.mp hx).2
    exact ruleViolation_jsonFields hlimit x
  unfold dayViolations
  rw [bind_of_eq_ok hlat, bind_of_eq_ok hlng]
  refine (bind_of_eq_ok hfound _).trans ?_
  rw [List.filterMap_map]
  rfl

/-- Places keep to the radius if none lies too far from the centre of its day. -/
theorem scoreRules_published (pf : Platform) {maxRadiusKm : Json} (hplaces : p.places = some places)
    (hradius : maxRadiusKm = .null ∨ ∃ limit, maxRadiusKm.num? = some limit) :
    ∃ rules, scoreRules pf p.jsonFields maxRadiusKm = .ok rules ∧
      ((∀ r, rules = some r → r.violations = 0) ↔ InRadius pf maxRadiusKm places) := by
  rcases hradius with rfl | ⟨limit, hlimit⟩
  · exact ⟨none, rfl, fun _ _ h => (nomatch h), nofun⟩
  -- the places are grouped by their days
  have hdays : (places.map fun x => Json.obj x.jsonFields).mapM
      (fun p => do pyInt pf (← p.getOr "day" (.int 1))) = .ok (places.map (·.day)) :=
    mapM_eq_ok.mpr (List.forall₂_map_left_iff.mpr (List.forall₂_map_right_iff.mpr
      (List.forall₂_same.mpr fun _ _ => rfl)))
  have hgroup : ∀ day, (((places.map (·.day)).zip (places.map fun x => Json.obj x.jsonFields)).filter
      (·.1 = day)).map (·.2) = (places.filter (·.day = day)).map fun x => .obj x.jsonFields := by
    intro day
    rw [List.zip_map', List.filter_map, List.map_map]
    rfl
  let found (day : Int) := (places.filter (·.day = day)).filterMap (violationOf pf limit places)
  -- and each day is judged by itself
  have hall : (sortedBy id (places.map (·.day)).dedup).mapM (fun day =>
      dayViolations pf maxRadiusKm day
        ((((places.map (·.day)).zip (places.map fun x => Json.obj x.jsonFields)).filter
          (·.1 = day)).map (·.2))) =
      .ok ((sortedBy id (places.map (·.day)).dedup).map found) :=
    mapM_eq_ok.mpr (List.forall₂_map_right_iff.mpr (List.forall₂_same.mpr fun day _ => by
      rw [hgroup]
      exact dayViolations_jsonFields hlimit places day))
  let total := ((sortedBy id (places.map (·.day)).dedup).map found).flatten
  refine ⟨some ⟨maxRadiusKm, total.length, total.take 5⟩, ?_, ?_⟩
  · unfold scoreRules
    split
    · exact nomatch hlimit
    rw [bind_of_eq_ok (iter_places hplaces), bind_of_eq_ok hdays, bind_of_eq_ok hall]
    rfl
  · -- no violation anywhere is every place near its centre
    have hnone : ∀ x, violationOf pf limit places x = none ↔
        ¬ limit < kmFromCentre pf places x := fun x => by simp [violationOf]
    simp only [Option.some.injEq, forall_eq', List.length_eq_zero_iff, List.flatten_eq_nil_iff,
      List.forall_mem_map, mem_sortedBy, List.mem_dedup, total, found, List.filterMap_eq_nil_iff,
      List.mem_filter, decide_eq_true_eq, hnone]
    constructor
    · intro hnear limit' hlimit' x hx
      obtain rfl := Option.some.inj (hlimit.symm.trans hlimit')
      exact hnear x hx x ⟨hx, rfl⟩
    · intro hnear y hy x hx
      exact hnear limit hlimit x hx.1

/-! ### The user's order -/

/-- The place the user picked, as a case writes it down. -/
def WrittenAs (entry : Json) (given : SelectedPlace) : Prop :=
  ∃ m, entry = .obj m ∧ dictGet m "name" = .str given.name ∧
    dictGet m "content_id" = jsonOption .str given.contentId ∧
    (m.lookup "day").getD (.int 1) = .int given.day

/-- A place the user gave no identifier for goes by the name the user wrote. -/
def SameName (given : SelectedPlace) (x : Place) : Prop :=
  (∀ cid, given.contentId = some cid → cid = "") → x.name = given.name

/-- An integer equals itself. -/
theorem pyEq_int (i : Int) : pyEq (.int i) (.int i) = true := by
  simp [pyEq, Json.num?]

/-- The judge takes a place the pipeline took for the given one, unless only its
    name could tell and that is written otherwise. -/
theorem visitChanged_published {given : SelectedPlace} {x : Place} {entry : Json}
    (h : Corresponds pf given x) (hentry : WrittenAs entry given) :
    ∃ changed, visitChanged (.obj x.jsonFields) entry = .ok changed ∧
      (changed = false ↔ SameName given x) := by
  obtain ⟨m, rfl, hname, hcid, hday⟩ := hentry
  obtain ⟨hsameDay, hplace⟩ := h
  have hgetDay : Json.getOr "day" (.obj m) (.int 1) = .ok (.int given.day) := congrArg Except.ok hday
  have hxDay : Json.getOr "day" (.obj x.jsonFields) (.int 1) = .ok (.int given.day) := by
    rw [← hsameDay]
    rfl
  have hgetCid : Json.get "content_id" (.obj m) = .ok (jsonOption .str given.contentId) :=
    congrArg Except.ok hcid
  have hgetName : Json.get "name" (.obj m) = .ok (.str given.name) := congrArg Except.ok hname
  -- the days are the same, so it is about the place alone
  have hchanged : ∀ {other}, otherPlace (.obj x.jsonFields) (.obj m) = .ok other →
      visitChanged (.obj x.jsonFields) (.obj m) = .ok other := by
    intro other hother
    unfold visitChanged
    rw [bind_of_eq_ok hother]
    cases other with
    | true => rfl
    | false =>
      rw [if_neg Bool.false_ne_true, bind_of_eq_ok hxDay, bind_of_eq_ok hgetDay, pyEq_int]
      rfl
  rcases hplace with ⟨cid, hne, hgiven, hx⟩ | ⟨hnone, -, -⟩
  · -- an identifier was given, and it is the place's
    refine ⟨false, hchanged ?_, iff_of_true rfl fun h => absurd (h cid hgiven) hne⟩
    have hxCid : Json.get "content_id" (.obj x.jsonFields) = .ok (.str cid) := by
      change Except.ok (jsonOption Json.str x.contentId) = _
      rw [hx]
      rfl
    have htruthy : (jsonOption Json.str given.contentId).truthy = true := by
      rw [hgiven]
      simpa [jsonOption, Json.truthy] using hne
    unfold otherPlace
    rw [bind_of_eq_ok hgetCid, if_pos htruthy, bind_of_eq_ok hxCid, hgiven]
    simp [jsonOption, pyEq, pure, Except.pure]
  · -- none was given, so the judge goes by the name as written
    refine ⟨!(x.name == given.name), hchanged ?_, ?_⟩
    · have htruthy : ¬ (jsonOption Json.str given.contentId).truthy = true := by
        cases hgiven : given.contentId with
        | none => decide
        | some cid =>
          rw [hnone cid hgiven]
          decide
      have hxName : Json.get "name" (.obj x.jsonFields) = .ok (.str x.name) := rfl
      unfold otherPlace
      rw [bind_of_eq_ok hgetCid, if_neg htruthy, bind_of_eq_ok hxName, bind_of_eq_ok hgetName]
      simp [pyEq, pure, Except.pure]
    · rw [Bool.not_eq_false', beq_iff_eq]
      exact ⟨fun h _ => h, fun h => h hnone⟩

/-- One by one, the visits are those of the user if each has the name. -/
theorem anyM_visitChanged {given : List SelectedPlace} {entries : List Json}
    (h : List.Forall₂ (Corresponds pf) given places)
    (hentries : List.Forall₂ WrittenAs entries given) :
    ∃ changed, ((places.map fun x => Json.obj x.jsonFields).zip entries).anyM
        (fun (visit, given) => visitChanged visit given) = .ok changed ∧
      (changed = false ↔ List.Forall₂ SameName given places) := by
  induction h generalizing entries with
  | nil =>
    cases hentries
    exact ⟨false, rfl, iff_of_true rfl .nil⟩
  | cons hx _ ih =>
    cases hentries with
    | cons hentry hentries =>
      obtain ⟨changed, hchanged, hsame⟩ := visitChanged_published hx hentry
      rw [List.map_cons, List.zip_cons_cons, List.anyM, List.forall₂_cons]
      rw [bind_of_eq_ok hchanged]
      cases changed with
      -- one visit that changed is enough
      | true => exact ⟨true, rfl, iff_of_false nofun fun h => nomatch hsame.mpr h.1⟩
      | false =>
        obtain ⟨rest, hrest, hiff⟩ := ih hentries
        exact ⟨rest, hrest, hiff.trans (iff_and_self.mpr fun _ => hsame.mp rfl)⟩

/-- Places that stand in the order of the visits are found one by one. -/
theorem orderChanged_published {given : List SelectedPlace} {entries : List Json}
    (hplaces : p.places = some places) (horder : p.visitOrder = some (places.map (·.placeId)))
    (hnodup : (places.map (·.placeId)).Nodup) (h : List.Forall₂ (Corresponds pf) given places)
    (hentries : List.Forall₂ WrittenAs entries given) :
    ∃ changed, orderChanged p.jsonFields (.arr entries) = .ok changed ∧
      (changed = false ↔ List.Forall₂ SameName given places) := by
  -- the judge looks up each visit among the places
  have hitem : dictItem p.jsonFields "places" = .ok (.arr (places.map fun x => .obj x.jsonFields)) := by
    change Except.ok (jsonOption _ p.places) = _
    rw [hplaces]
    rfl
  have hbyId : (places.map fun x => Json.obj x.jsonFields).mapM
      (fun p => do return ((← (← p.item "place_id").key), p)) =
      .ok (places.map fun x => (intKey x.placeId, Json.obj x.jsonFields)) :=
    mapM_eq_ok.mpr (List.forall₂_map_left_iff.mpr (List.forall₂_map_right_iff.mpr
      (List.forall₂_same.mpr fun _ _ => rfl)))
  have hvisits : orderedPlaces (places.map fun x => (intKey x.placeId, Json.obj x.jsonFields)) []
      (.arr ((places.map (·.placeId)).map .int)) = places.map fun x => .obj x.jsonFields := by
    have hperm : ((places.map fun x => (⟨x, 0, 0⟩ : Visit Place)).map (·.place)).Perm places := by
      rw [List.map_map]
      exact .of_eq (List.map_id _)
    have hfound := orderedPlaces_eq hnodup hperm
    rw [List.map_map, List.map_map, List.map_map] at hfound
    rw [List.map_map]
    exact hfound
  have hiter : ((dictGet p.jsonFields "visit_order").orElse (.arr [])).iter =
      .ok ((places.map (·.placeId)).map .int) := by
    rw [dictGet_order horder, Json.iter_orElse_arr]
  -- there are as many visits as places given
  have hlength : (places.map fun x => Json.obj x.jsonFields).length = entries.length := by
    rw [List.length_map, hentries.length_eq, h.length_eq]
  unfold orderChanged
  rw [bind_of_eq_ok hitem]
  refine (exists_congr fun changed => ?_).mpr (anyM_visitChanged h hentries)
  refine and_congr_left fun _ => Eq.congr ?_ rfl
  rw [show (Json.arr (places.map fun x => Json.obj x.jsonFields)).iter = .ok _ from rfl, ok_bind,
    bind_of_eq_ok hbyId, bind_of_eq_ok hiter, hvisits,
    show (Json.arr entries).iter = .ok entries from rfl, ok_bind, if_neg (not_not.mpr hlength)]

/-- What is found of the order of a case: only where it asks for one, and a name is
    written otherwise. -/
theorem breaksOrder_published (pf : Platform) {request : List (String × Json)}
    (hstage : (dictGet request "stage").eqStr "route" = decide (req.stage = .route))
    (hoptimize : ((request.lookup "optimize").getD (.bool false)).truthy = req.optimize)
    (hentries : req.stage = .route → ∃ entries, dictGet request "places" = .arr entries ∧
      List.Forall₂ WrittenAs entries req.given)
    (hplaces : p.places = some places) (hnodup : (places.map (·.placeId)).Nodup)
    (hroute : req.stage = .route → req.optimize = false →
      p.visitOrder = some (places.map (·.placeId)) ∧
        List.Forall₂ (Corresponds pf) req.given places) :
    ∃ changed, breaksOrder p.jsonFields (.obj request) = .ok changed ∧
      (changed = false ↔ (req.stage = .route → req.optimize = false →
        List.Forall₂ SameName req.given places)) := by
  unfold breaksOrder
  rw [show Json.get "stage" (.obj request) = .ok _ from rfl, ok_bind,
    show Json.getOr "optimize" (.obj request) _ = .ok _ from rfl, ok_bind,
    show Json.get "places" (.obj request) = .ok _ from rfl, ok_bind, hstage, hoptimize]
  by_cases hasked : req.stage = .route ∧ req.optimize = false
  · -- a route whose order was to be kept
    obtain ⟨hstage, hoptimize⟩ := hasked
    obtain ⟨horder, hgiven⟩ := hroute hstage hoptimize
    obtain ⟨entries, hget, hentries⟩ := hentries hstage
    have hiff : List.Forall₂ SameName req.given places ↔ (req.stage = .route → req.optimize = false →
        List.Forall₂ SameName req.given places) := ⟨fun h _ _ => h, fun h => h hstage hoptimize⟩
    rw [hget, ← hiff]
    cases entries with
    | nil =>
      -- no place to keep in order
      rw [List.forall₂_nil_left_iff.mp hentries] at hgiven ⊢
      rw [List.forall₂_nil_left_iff.mp hgiven]
      exact ⟨false, by simp [Json.truthy, pure, Except.pure], iff_of_true rfl .nil⟩
    | cons entry entries =>
      have htruthy : (Json.arr (entry :: entries)).truthy = true := rfl
      rw [decide_eq_true hstage, hoptimize, htruthy, if_pos (by decide)]
      exact orderChanged_published hplaces horder hnodup hgiven hentries
  · -- the order was left to the route
    refine ⟨false, ?_, iff_of_true rfl fun hstage hoptimize => absurd ⟨hstage, hoptimize⟩ hasked⟩
    rw [if_neg]
    · rfl
    · simp only [Bool.and_eq_true, decide_eq_true_eq, Bool.not_eq_true']
      exact fun h => hasked h.1

/-! ### Drafts -/

/-- What every place is before the last nodes come to it. -/
def Fresh (x : Place) : Prop := 0 ≤ x.placeId ∧ Untimed x

/-- A place is built without times. -/
theorem Place.build_untimed {f : PlaceFields} {x : Place} (h : Place.build f = .ok x) :
    Untimed x := by
  unfold Place.build at h
  split at h <;> cases h
  exact ⟨rfl, rfl⟩

/-- So is one made from a candidate. -/
theorem placeFromCandidate_untimed {i : Int} {c : Json} {time : String} {day : Int} {x : Place}
    (h : placeFromCandidate pf i c time day = .ok x) : Untimed x := by
  unfold placeFromCandidate at h
  split at h
  · split at h
    · split at h
      · cases h
      · obtain ⟨_, -, h⟩ := bind_eq_ok.mp h
        split at h
        · split at h
          · obtain ⟨f, -, hbuild⟩ := bind_eq_ok.mp h
            exact Place.build_untimed hbuild
          · cases h
        · cases h
    · cases h
  · cases h

/-- A verified place has no negative number and no times. -/
theorem Verified.fresh {i : Nat} {given : SelectedPlace} {x : Place}
    (h : Verified env req i given x) : Fresh x := by
  obtain ⟨hid, -, -, -⟩ := h.place
  obtain ⟨response, candidates, -, -, hfound⟩ := h
  obtain ⟨c, -, hplace, -⟩ := findMatch_some hfound
  exact ⟨by omega, placeFromCandidate_untimed hplace⟩

/-- So are all the places verified for a list. -/
theorem verified_fresh {given : List (SelectedPlace × Nat)}
    (h : List.Forall₂ (fun g p => Verified env req g.2 g.1 p) given places) :
    ∀ x ∈ places, Fresh x := fun _ hx =>
  (exists_of_mem_right h hx).elim fun _ h => h.2.fresh

/-- Places numbered in sequence have no negative number. -/
theorem nonneg_of_range' {n k : Nat} (h : places.map (·.placeId) = (List.range' n k).map Int.ofNat) :
    ∀ x ∈ places, 0 ≤ x.placeId := by
  intro x hx
  have hmem := List.mem_map_of_mem (f := (·.placeId)) hx
  rw [h] at hmem
  obtain ⟨i, -, hi⟩ := List.mem_map.mp hmem
  rw [← hi]
  exact Int.natCast_nonneg i

/-- The places of a job are fresh before they are brought into an order. -/
theorem Drafted.fresh (h : Drafted env jobId req s) (hok : s.failed = false)
    (hplaces : s.places = some places) : ∀ x ∈ places, Fresh x := by
  cases h with
  | given run =>
    -- the places of a route were verified
    obtain ⟨-, -, -, places', hplaces', hverify⟩ := run.verified hok
    obtain rfl : places = places' := Option.some.inj (hplaces.symm.trans hplaces')
    exact verified_fresh (verifyFrom_verified hverify)
  | @chosen j j' run comes choose =>
    obtain ⟨pinned, places', hpinned, hrec, hplaces', -⟩ := recommendPlaces_ok choose hok
    obtain rfl : places = places' := Option.some.inj (hplaces.symm.trans hplaces')
    have hpins : ∀ x ∈ pinned, Fresh x := fun x hx =>
      verified_fresh (hpinned.forall₂ (List.ne_nil_of_mem hx)).2 x hx
    cases hrec with
    | filled _ _ => exact hpins
    | @merged capped fresh _ hselected _ =>
      have huntimed : ∀ x ∈ fresh, Untimed x := fun x hx => by
        obtain ⟨used, hmade, -⟩ := hselected.made
        obtain ⟨sel, -, i, c, -, hplace⟩ := exists_of_mem_right hmade hx
        exact placeFromCandidate_untimed hplace
      split
      · -- nothing was pinned
        exact fun x hx => ⟨nonneg_of_range' hselected.ids x hx, huntimed x hx⟩
      · intro x hx
        -- pins and fresh places were merged and numbered anew
        refine ⟨nonneg_of_range' (renumber_ids _) x hx, ?_⟩
        obtain ⟨q, hq | hq, i, rfl⟩ := mem_mergePinned hx
        · exact (hpins q hq).2
        · exact huntimed q hq

/-! ### Times that are not vouched for -/

/-- A node that does not find the times writes none. -/
theorem buildTimeline_untimed (h : buildTimeline env s = .ok s')
    (huntimed : s.timelineKeys = (none, none, none)) (hstatus : s'.timelineStatus ≠ some .ok) :
    s'.timeline = none ∧ s'.timelineOverflowDays = none := by
  obtain ⟨htimeline, -, hover⟩ := by simpa only [Prod.mk.injEq] using huntimed
  have hsame : (.ok s : Except PyExn AgentState) = .ok s' →
      s'.timeline = none ∧ s'.timelineOverflowDays = none := by
    rintro ⟨⟩
    exact ⟨htimeline, hover⟩
  unfold buildTimeline at h
  rw [timelineWarnings_frame] at h
  dsimp only at h
  split at h
  · -- the state had failed
    exact hsame h
  split at h
  · -- there are to be no times
    exact hsame h
  split at h
  · split at h
    · -- the hub's stays could not be had
      cases h
      exact ⟨htimeline, hover⟩
    · cases h
  · -- the times were found
    obtain ⟨dwells, -, h⟩ := bind_eq_ok.mp h
    cases h
    exact absurd rfl hstatus

/-- Times that are not vouched for are not there. -/
theorem DoneRun.untimed (run : DoneRun env jobId req p)
    (hstatus : ¬ (run.fitted.timelineStatus = some .ok ∨ run.fitted.timelineStatus = some .trimmed)) :
    run.fitted.timeline = none := by
  obtain ⟨j, hj, hstate⟩ := run.comesTime
  have huntimed := untimed_of_reaches (by decide) hj
  rw [hstate] at huntimed
  have hfit := fitTimeBudget_ok run.fit run.fitted_ok
  generalize run.fitted = fitted at hfit hstatus ⊢
  cases hfit with
  | kept _ => exact (buildTimeline_untimed run.time huntimed fun h => hstatus (.inl h)).1
  | trimmed => exact absurd (.inr rfl) hstatus

/-- The places of a published result: numbered, backed by the hub, and without times
    where none are vouched for. -/
theorem DoneRun.places_published (run : DoneRun env jobId req p) :
    ∃ places order legs, p.places = some places ∧ p.visitOrder = some order ∧ p.legs = some legs ∧
      places ≠ [] ∧ Itinerary places order legs ∧ (∀ x ∈ places, 0 ≤ x.placeId) ∧
      (∀ x ∈ places, ∃ m, Backs env.platform m x) ∧
      (¬ (p.timelineStatus = some .ok ∨ p.timelineStatus = some .trimmed) →
        ∀ x ∈ places, Untimed x) := by
  obtain ⟨drafted, -, dropped, legs, hdrafted, -, hfitted, -, -⟩ := run.fitted_routed
  obtain ⟨kept, _, _, hkept, -, htwo, -⟩ := run.fitted_itinerary
  obtain rfl := Option.some.inj (hkept.places_eq.symm.trans hfitted.places_eq)
  obtain ⟨enrich, henrich, hplaces, horder, hlegs, hstatus⟩ := run.published hfitted
  have hfresh := run.draft.fresh run.drafted_ok hdrafted
  have hbacked := run.draft.backed run.drafted_ok hdrafted
  refine ⟨_, _, _, hplaces, horder, hlegs, fun hnil => ?_, henrich.itinerary hfitted.itinerary,
    List.forall_mem_map.mpr fun x hx => ?_, List.forall_mem_map.mpr fun x hx => ?_,
    fun hbad => List.forall_mem_map.mpr fun x hx => ?_⟩
  · rw [List.map_eq_nil_iff.mp hnil] at htwo
    exact absurd htwo (by decide)
  · -- numbers and sources are those the places were drafted with
    rw [henrich.placeId]
    exact (hfresh x (List.mem_of_mem_filter hx)).1
  · obtain ⟨reason, bullets, hx'⟩ := henrich x
    obtain ⟨m, -, hbacks⟩ := (hbacked x (List.mem_of_mem_filter hx)).enrich reason bullets
      ((run.fitted.timeline.getD []).lookup x.placeId)
    exact ⟨m, hx' ▸ hbacks⟩
  · -- there is no slot to write on it
    rw [hstatus] at hbad
    obtain ⟨reason, bullets, hx'⟩ := henrich x
    rw [run.untimed hbad] at hx'
    rw [hx']
    exact (hfresh x (List.mem_of_mem_filter hx)).2

/-- The judge is content with the times that are vouched for, and with no others. -/
theorem DoneRun.scoreTimeline (run : DoneRun env jobId req p) (hhub : DwellMinutes env.hub) :
    ∃ score, scoreTimeline env.platform p.jsonFields (.str req.date.timeStart.hhmm)
        (.str req.date.timeEnd.hhmm) true = .ok score ∧ score.applicable = true ∧
      (score.ok = true ↔ p.timelineStatus = some .ok ∨ p.timelineStatus = some .trimmed) := by
  by_cases hgood : p.timelineStatus = some .ok ∨ p.timelineStatus = some .trimmed
  · obtain ⟨places, order, legs, hplaces, horder, hlegs, hitinerary, visits, hne, hperm, hids, hshows,
      hontime⟩ := run.visits hhub hgood
    exact ⟨_, scoreTimeline_onTime hplaces horder hlegs hitinerary hne hperm hids hshows hontime, rfl,
      iff_of_true rfl hgood⟩
  · obtain ⟨places, -, -, hplaces, -, -, -, -, -, -, huntimed⟩ := run.places_published
    exact ⟨_, scoreTimeline_untimed hplaces (huntimed hgood) _ _ _, rfl, iff_of_false nofun hgood⟩

/-! ### The case -/

/-- A case of the request: it expects the times of the request and this radius. -/
structure CaseOf (case : List (String × Json)) (req : AgentRequest) (maxRadiusKm : Json) : Prop where
  expect : ∃ m, dictGet case "expect" = .obj m ∧ dictGet m "max_radius_km" = maxRadiusKm ∧
    dictGet m "time_start" = .str req.date.timeStart.hhmm ∧
    dictGet m "time_end" = .str req.date.timeEnd.hhmm
  request : ∃ m, dictGet case "request" = .obj m ∧
    (dictGet m "stage").eqStr "route" = decide (req.stage = .route) ∧
    ((m.lookup "optimize").getD (.bool false)).truthy = req.optimize ∧
    (req.stage = .route → ∃ entries, dictGet m "places" = .arr entries ∧
      List.Forall₂ WrittenAs entries req.given)

/-- What the standard asks of a result beyond what the pipeline sees to. -/
structure Presentable (pf : Platform) (req : AgentRequest) (maxRadiusKm : Json)
    (p : JobDonePayload) (places : List Place) : Prop where
  showable : ∀ x ∈ places, Showable x
  timed : p.timelineStatus = some .ok ∨ p.timelineStatus = some .trimmed
  named : req.stage = .route → req.optimize = false → List.Forall₂ SameName req.given places
  inRadius : InRadius pf maxRadiusKm places

/-- An object stands for itself where a default is at hand. -/
theorem orElse_obj {v : Json} {m : List (String × Json)} (h : v = .obj m) :
    v.orElse (.obj []) = .obj m := by
  subst h
  cases m <;> rfl

/-- A written time is not blank. -/
theorem hhmm_truthy (t : Time) : (Json.str t.hhmm).truthy = true := by
  have hne : t.hhmm ≠ "" := by
    intro h
    have hlen := congrArg (fun s : String => s.toList.length) h
    simp [Time.hhmm, String.toList_append] at hlen
  simpa [Json.truthy] using hne

/-- The score of a run that ends in a result. -/
theorem DoneRun.scoreCase (run : DoneRun env jobId req p) {case : List (String × Json)}
    {maxRadiusKm training : Json} {admits : Bool} (hhub : DwellMinutes env.hub)
    (hdone : p.status = .done) (hcase : CaseOf case req maxRadiusKm)
    (hradius : maxRadiusKm = .null ∨ ∃ limit, maxRadiusKm.num? = some limit)
    (htraining : admitsInvention training = .ok admits) :
    ∃ places score, p.places = some places ∧
      Native.scoreCase env.platform case (.obj p.jsonFields) training = .ok score ∧
      score.caseId = dictGet case "id" ∧ (score.meetsStandard = true ↔
        admits = false ∧ Presentable env.platform req maxRadiusKm p places) := by
  obtain ⟨places, order, legs, hplaces, horder, hlegs, hne, hitinerary, hids, hbacked, -⟩ :=
    run.places_published
  obtain ⟨expect, hexpect, hmax, hstart, hend⟩ := hcase.expect
  obtain ⟨request, hrequest, hstage, hoptimize, hentries⟩ := hcase.request
  have hgrounded := scoreGrounded_published hplaces hne hbacked htraining
  obtain ⟨hform, hrefused⟩ := scoreSchema_published env.platform hdone hplaces hne
    hitinerary.ids_nodup hids
  refine ⟨places, ?_⟩
  by_cases hshowable : ∀ x ∈ places, Showable x
  · obtain ⟨timeline, htimeline, happlicable, htimes⟩ := run.scoreTimeline hhub
    obtain ⟨rules, hrules, hclean⟩ := scoreRules_published env.platform hplaces hradius
    obtain ⟨changed, hchanged, hnamed⟩ := breaksOrder_published env.platform hstage hoptimize
      hentries hplaces hitinerary.ids_nodup fun hstage hoptimize => by
        obtain ⟨places', order', visited, hplaces', horder', hgiven, -, -, hvisits, -, -, hsame⟩ :=
          run.given_published hstage
        obtain rfl := Option.some.inj (hplaces.symm.trans hplaces')
        rw [horder', hvisits, hsame hoptimize]
        exact ⟨rfl, hgiven⟩
    have hroute := scoreRoute_published hplaces horder hlegs hne hitinerary
    refine ⟨{ caseId := dictGet case "id", schema := .ok places.length
              grounded := ⟨true, !admits, admits⟩, rules := rules
              route := some (if changed then RouteScore.blame ⟨true, true, some [], none⟩
                "사용자 방문 순서 변경" else ⟨true, true, some [], none⟩)
              timeline := some timeline }, hplaces, ?_, rfl, ?_⟩
    · -- every axis is judged, the times included
      have hrequired : ((Json.str req.date.timeStart.hhmm).truthy ||
          (Json.str req.date.timeEnd.hhmm).truthy) = true := by rw [hhmm_truthy, Bool.true_or]
      unfold Native.scoreCase
      rw [bind_of_eq_ok (hform hshowable), bind_of_eq_ok hgrounded]
      dsimp only
      rw [orElse_obj hexpect, orElse_obj hrequest]
      simp only [Json.get, hmax, hstart, hend, ok_bind, hrules, hroute, hrequired, htimeline,
        hchanged]
      rfl
    · -- the route is fine when no visit was changed
      have hkept : (∃ route, (some (if changed then RouteScore.blame ⟨true, true, some [], none⟩
          "사용자 방문 순서 변경" else ⟨true, true, some [], none⟩) : Option RouteScore) = some route ∧
          route.ok = true) ↔ changed = false := by
        cases changed <;> simp [RouteScore.blame]
      rw [meetsStandard_iff, hkept, hnamed, hclean]
      simp only [SchemaScore.isOk, Bool.not_eq_true', Option.some.injEq, forall_eq', happlicable,
        forall_const, htimes, true_and]
      exact and_congr_right fun _ => ⟨fun h => ⟨hshowable, h.2.2, h.1, h.2.1⟩,
        fun h => ⟨h.named, h.inRadius, h.timed⟩⟩
  · -- nothing else is judged
    obtain ⟨reason, hreason⟩ := hrefused hshowable
    refine ⟨{ caseId := dictGet case "id", schema := .failed reason
              grounded := ⟨true, !admits, admits⟩ }, hplaces, ?_, rfl, ?_⟩
    · unfold Native.scoreCase
      rw [bind_of_eq_ok hreason, bind_of_eq_ok hgrounded]
      rfl
    · exact iff_of_false (fun h => by cases h) fun h => hshowable h.2.showable

/-- A published result meets the standard if it is presentable, and the training
    signal does not say that its places were made up; otherwise it does not. -/
theorem judge_agrees {case : List (String × Json)} {maxRadiusKm training : Json} {admits : Bool}
    (hhub : DwellMinutes env.hub) (h : p ∈ runJob env jobId req) (hdone : p.status = .done)
    (hcase : CaseOf case req maxRadiusKm)
    (hradius : maxRadiusKm = .null ∨ ∃ limit, maxRadiusKm.num? = some limit)
    (htraining : admitsInvention training = .ok admits) :
    ∃ places score, p.places = some places ∧
      scoreCase env.platform case (.obj p.jsonFields) training = .ok score ∧
      (score.meetsStandard = true ↔
        admits = false ∧ Presentable env.platform req maxRadiusKm p places) := by
  obtain ⟨run⟩ := doneRun_of_mem h hdone
  obtain ⟨places, score, hplaces, hscore, -, hstandard⟩ :=
    run.scoreCase hhub hdone hcase hradius htraining
  exact ⟨places, score, hplaces, hscore, hstandard⟩

/-- A case of the sample trip. -/
def sampleCase (id : String) : List (String × Json) :=
  [("id", .str id), ("request", .obj []),
   ("expect", .obj [("time_start", .str "09:00"), ("time_end", .str "20:00")])]

/-- The sample case is one of the sample trip. -/
theorem sampleCase_of (id : String) : CaseOf (sampleCase id) (sampleTrip .init) .null where
  expect := ⟨_, rfl, rfl, congrArg Json.str (by decide +kernel),
    congrArg Json.str (by decide +kernel)⟩
  request := ⟨_, rfl, rfl, rfl, nofun⟩

/-- The sample trip meets the standard. -/
theorem judge_agrees_sample :
    ∃ p ∈ runJob sampleEnv "j" (sampleTrip .init), ∃ score,
      scoreCase samplePlatform (sampleCase "a") (.obj p.jsonFields) .null = .ok score ∧
        score.meetsStandard = true := by
  obtain ⟨p, hp, hdone, hstatus⟩ := sampleTrip_done .init
  have hmem : p ∈ runJob sampleEnv "j" (sampleTrip .init) := hp ▸ List.mem_singleton_self p
  -- the name of every place can be shown
  have hall : ∀ p ∈ runJob sampleEnv "j" (sampleTrip .init), ∀ x ∈ p.places.getD [], Showable x := by
    decide +kernel
  obtain ⟨places, score, hplaces, hscore, hiff⟩ :=
    judge_agrees sampleHub_dwellMinutes hmem hdone (sampleCase_of "a") (.inl rfl)
      (show admitsInvention .null = .ok false from rfl)
  have hshowable := hall p hmem
  rw [hplaces] at hshowable
  exact ⟨p, hmem, score, hscore, hiff.mpr ⟨rfl, hshowable, .inl hstatus, nofun, nofun⟩⟩

end MapServiceAgent.Native

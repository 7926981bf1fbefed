import MapServiceAgent.ForStd.Timetable
import MapServiceAgent.Spec.TrimCorrect

/-!
# The planner makes timetables that can be kept

Laying out the stops of an itinerary is writing down its visits one by one; when
no day runs over, the visits are a timetable that can be kept.

## Key results

- `layOut_eq_foldl`: the loop of `_plan_timeline` writes down `visitsFrom`
- `planTimeline_onTime`: without an overflow its visits are on time, and every
  place has the slot of its visit
-/

namespace MapServiceAgent.Native

variable {pf : Platform} {env : Env} {s s' : AgentState}

/-! ### The visits of a layout -/

namespace DayPlan

variable {plan : DayPlan}

/-- The visits the loop of `_plan_timeline` makes from a cursor on. -/
def visitsFrom (plan : DayPlan) (cursor : Int) (currentDay : Option Int) :
    List Place → List (Visit Place)
  | [] => []
  | x :: rest =>
    let start := plan.startOf cursor currentDay x.day
    ⟨x, start, plan.stay x.placeId⟩ :: plan.visitsFrom
      (plan.cursorAfter x.placeId x.day (start + plan.stay x.placeId)
        (rest.head?.map (·.placeId))) (some x.day) rest

/-- Writing one visit down. -/
def record (plan : DayPlan) (out : Layout) (v : Visit Place) : Layout :=
  plan.visit v.place.placeId v.place.day v.start out

/-- Every place is visited, in the order it has. -/
@[simp] theorem map_place_visitsFrom (cursor : Int) (currentDay : Option Int)
    (visited : List Place) : (plan.visitsFrom cursor currentDay visited).map (·.place) = visited := by
  induction visited generalizing cursor currentDay with
  | nil => rfl
  | cons x rest ih => simp [visitsFrom, ih]

/-- So the numbers of the visits are those of the places. -/
theorem map_placeId_visitsFrom (plan : DayPlan) (cursor : Int) (currentDay : Option Int)
    (visited : List Place) :
    (plan.visitsFrom cursor currentDay visited).map (·.place.placeId) =
      visited.map (·.placeId) := by
  have h := congrArg (List.map (·.placeId)) (plan.map_place_visitsFrom cursor currentDay visited)
  rwa [List.map_map] at h

/-- A visit stays as long as the plan has the place stay. -/
theorem stay_visitsFrom {cursor : Int} {currentDay : Option Int} {visited : List Place}
    {v : Visit Place} (hv : v ∈ plan.visitsFrom cursor currentDay visited) :
    v.stay = plan.stay v.place.placeId := by
  induction visited generalizing cursor currentDay with
  | nil => exact nomatch hv
  | cons x rest ih =>
    rcases List.mem_cons.mp hv with rfl | hv
    · rfl
    · exact ih hv

/-- The loop writes down its visits one by one. -/
theorem layOut_eq_foldl {visited : List Place}
    (hplaces : ∀ x ∈ visited, plan.placeOf x.placeId = some x) (cursor : Int)
    (currentDay : Option Int) (out : Layout) :
    plan.layOut cursor currentDay out (visited.map (·.placeId)) =
      (plan.visitsFrom cursor currentDay visited).foldl plan.record out := by
  induction visited generalizing cursor currentDay out with
  | nil => rfl
  | cons x rest ih =>
    have hrest := fun y hy => hplaces y (List.mem_cons_of_mem _ hy)
    rw [List.map_cons, layOut, hplaces x List.mem_cons_self]
    dsimp only
    rw [ih hrest, visitsFrom, List.foldl_cons, List.head?_map]
    rfl

/-! ### Slots -/

/-- Writing a visit down leaves the slot of every other place. -/
theorem lookup_record_ne {out : Layout} {v : Visit Place} {pid : Int} (h : pid ≠ v.place.placeId) :
    (plan.record out v).timeline.lookup pid = out.timeline.lookup pid :=
  lookup_dictSet_ne h

/-- So does writing down visits to other places. -/
theorem lookup_foldl_record_ne {visits : List (Visit Place)} {pid : Int}
    (h : ∀ v ∈ visits, pid ≠ v.place.placeId) (out : Layout) :
    (visits.foldl plan.record out).timeline.lookup pid = out.timeline.lookup pid := by
  induction visits generalizing out with
  | nil => rfl
  | cons v visits ih =>
    rw [List.foldl_cons, ih fun w hw => h w (List.mem_cons_of_mem _ hw),
      lookup_record_ne (h v List.mem_cons_self)]

/-- Every place has the slot of its visit. -/
theorem lookup_foldl_record {visits : List (Visit Place)}
    (hnodup : (visits.map (·.place.placeId)).Nodup) {v : Visit Place} (hv : v ∈ visits)
    (out : Layout) :
    (visits.foldl plan.record out).timeline.lookup v.place.placeId =
      some (plan.slot v.place.placeId v.start) := by
  induction visits generalizing out with
  | nil => exact nomatch hv
  | cons w visits ih =>
    obtain ⟨hw, hnodup⟩ := List.nodup_cons.mp hnodup
    rw [List.foldl_cons]
    rcases List.mem_cons.mp hv with rfl | hv
    · -- the visits after it are to other places
      rw [lookup_foldl_record_ne fun u hu h => hw (List.mem_map.mpr ⟨u, hu, h.symm⟩)]
      exact lookup_dictSet_self ..
    · exact ih hnodup hv _

/-- Whatever stops are laid out, a slot's stay is the stay of its place. -/
theorem lookup_layOut {cursor : Int} {currentDay : Option Int} {out : Layout} {order : List Int}
    {pid : Int} {slot : Slot}
    (h : (plan.layOut cursor currentDay out order).timeline.lookup pid = some slot) :
    slot.stayMinutes = plan.stay pid ∨ out.timeline.lookup pid = some slot := by
  induction order generalizing cursor currentDay out with
  | nil => exact .inr h
  | cons next rest ih =>
    rw [layOut] at h
    split at h
    · exact ih h
    · rcases ih h with h | h
      · exact .inl h
      · -- the slot is the one just written, or an older one
        by_cases hpid : pid = next
        · subst hpid
          rw [visit, lookup_dictSet_self] at h
          cases h
          exact .inl rfl
        · rw [visit, lookup_dictSet_ne hpid] at h
          exact .inr h

/-! ### Days that do not run over -/

/-- A day once noted stays noted. -/
theorem overflowed_record_eq_nil {out : Layout} {v : Visit Place}
    (h : (plan.record out v).overflowed = []) :
    out.overflowed = [] ∧ v.start + plan.stay v.place.placeId ≤ plan.endMin := by
  simp only [record, visit] at h
  split at h
  · exact absurd h (by simp)
  · rename_i hfits
    exact ⟨h, by simpa [h] using hfits⟩

/-- When no day ran over, every visit ended in time. -/
theorem overflowed_foldl_eq_nil {visits : List (Visit Place)} {out : Layout}
    (h : (visits.foldl plan.record out).overflowed = []) :
    out.overflowed = [] ∧ ∀ v ∈ visits, v.start + plan.stay v.place.placeId ≤ plan.endMin := by
  induction visits generalizing out with
  | nil => exact ⟨h, fun _ hv => nomatch hv⟩
  | cons v visits ih =>
    obtain ⟨hrec, hrest⟩ := ih h
    obtain ⟨hout, hv⟩ := overflowed_record_eq_nil hrec
    exact ⟨hout, List.forall_mem_cons.mpr ⟨hv, hrest⟩⟩

/-- The day's budget is computed with times that do not run backwards. -/
structure Forward (plan : DayPlan) : Prop where
  stay_nonneg : ∀ pid, 0 ≤ plan.stay pid
  travel_nonneg : ∀ pid, 0 ≤ plan.travel pid
  buffer_nonneg : 0 ≤ plan.bufferMin

/-- The cursor never goes back behind the end of a visit. -/
theorem Forward.le_cursorAfter (hplan : plan.Forward) (pid day stop : Int) (next : Option Int) :
    stop ≤ plan.cursorAfter pid day stop next := by
  have := hplan.travel_nonneg pid
  have := hplan.buffer_nonneg
  unfold cursorAfter
  repeat' split
  all_goals omega

/-- No visit starts before the day does. -/
theorem le_startOf {cursor : Int} (h : plan.startMin ≤ cursor) (currentDay : Option Int)
    (day : Int) : plan.startMin ≤ plan.startOf cursor currentDay day := by
  unfold startOf
  split <;> omega

/-- The visits from a cursor on can be kept if none ends too late. -/
theorem visitsFrom_onTime (hplan : plan.Forward) {visited : List Place} (hdays : DayByDay visited)
    (hplaces : ∀ x ∈ visited, plan.placeOf x.placeId = some x) {cursor : Int}
    (hcursor : plan.startMin ≤ cursor) (currentDay : Option Int)
    (hfits : ∀ v ∈ plan.visitsFrom cursor currentDay visited,
      v.start + plan.stay v.place.placeId ≤ plan.endMin) :
    OnTime (·.day) (fun x _ => plan.travel x.placeId) plan.startMin plan.endMin
      (plan.visitsFrom cursor currentDay visited) := by
  induction visited generalizing cursor currentDay with
  | nil => exact .nil
  | cons x rest ih =>
    obtain ⟨hx, hdays⟩ := List.pairwise_cons.mp hdays
    have hrest := fun y hy => hplaces y (List.mem_cons_of_mem _ hy)
    have hstart := le_startOf hcursor currentDay x.day
    have hstay := hplan.stay_nonneg x.placeId
    rw [visitsFrom] at hfits ⊢
    obtain ⟨hend, hfits⟩ := List.forall_mem_cons.mp hfits
    have hnext := hplan.le_cursorAfter x.placeId x.day
      (plan.startOf cursor currentDay x.day + plan.stay x.placeId) (rest.head?.map (·.placeId))
    -- the first visit lies in the day, and the rest follows by induction
    refine OnTime.cons_iff.mpr
      ⟨⟨hstay, hstart, hend⟩, ?_, ih hdays hrest (by omega) (some x.day) hfits⟩
    cases rest with
    | nil => exact fun _ h => nomatch h
    | cons y rest =>
      rintro _ ⟨⟩
      rcases (hx y List.mem_cons_self).lt_or_eq with hlt | heq
      · exact .inl hlt
      · -- on the same day the cursor counts the way and the buffer
        refine .inr ⟨heq, ?_⟩
        have hbuffer := hplan.buffer_nonneg
        simp only [Visit.stop, startOf, heq, cursorAfter, List.head?_cons, Option.map_some,
          Option.bind_some, hplaces y (List.mem_cons_of_mem _ List.mem_cons_self), if_true]
        omega

end DayPlan

/-! ### The planner on an itinerary -/

/-- A leg takes no negative time. -/
theorem legMinutes_nonneg (legs : List Leg) (order : List Int) (pid : Int) :
    0 ≤ legMinutes legs order pid := by
  unfold legMinutes
  cases keyedBy (·.1) (order.zip legs) pid with
  | none => exact le_rfl
  | some x => exact le_max_left _ _

/-- The planner reads the itinerary and the request. -/
theorem planTimeline_congr {settings : Settings} {stay : Int → Int}
    (hplaces : s.places = s'.places) (horder : s.visitOrder = s'.visitOrder)
    (hlegs : s.legs = s'.legs) (hreq : s.request = s'.request) :
    planTimeline settings s stay = planTimeline settings s' stay := by
  have hplaceById : s.placeById = s'.placeById := by
    funext pid
    rw [AgentState.placeById, AgentState.placeById, hplaces]
  rw [planTimeline, planTimeline, dayPlan, dayPlan, hplaceById, horder, hlegs, hreq]

/-- Without an overflow the visits are on time, and every place has the slot of
    its visit. -/
theorem planTimeline_onTime {settings : Settings} {stay : Int → Int} {places : List Place}
    {order : List Int} {legs : List Leg} (hs : Routed s places order legs)
    (hstay : ∀ pid, 0 ≤ stay pid) (hfits : (planTimeline settings s stay).overflowed = []) :
    ∃ visits : List (Visit Place), (visits.map (·.place)).Perm places ∧
      visits.map (·.place.placeId) = order ∧
      OnTime (·.day) (fun x _ => legMinutes legs order x.placeId)
        s.request.date.timeStart.minuteOfDay s.request.date.timeEnd.minuteOfDay visits ∧
      ∀ v ∈ visits, (planTimeline settings s stay).timeline.lookup v.place.placeId =
        some ⟨v.stay, minutesToHhmm v.start, minutesToHhmm v.stop, none⟩ := by
  obtain ⟨visited, hperm, hdays, rfl⟩ := hs.itinerary.visits
  set plan := dayPlan settings s stay with hplan
  have hforward : plan.Forward := ⟨hstay, legMinutes_nonneg _ _, le_max_left _ _⟩
  have hplaces : ∀ x ∈ visited, plan.placeOf x.placeId = some x :=
    fun x hx => hs.placeById (hperm.mem_iff.mp hx)
  -- the layout is a fold over the visits, recorded one by one
  have hlayout : planTimeline settings s stay =
      (plan.visitsFrom plan.startMin none visited).foldl plan.record {} := by
    rw [planTimeline, hs.order_eq]
    exact DayPlan.layOut_eq_foldl hplaces _ _ _
  have hids := DayPlan.map_placeId_visitsFrom plan plan.startMin none visited
  rw [hlayout] at hfits ⊢
  have hends := (DayPlan.overflowed_foldl_eq_nil hfits).2
  have honTime := DayPlan.visitsFrom_onTime hforward hdays hplaces le_rfl none hends
  refine ⟨_, by rw [DayPlan.map_place_visitsFrom]; exact hperm, hids, ?_, fun v hv => ?_⟩
  · simpa only [hplan, dayPlan, hs.legs_eq, hs.order_eq, Option.getD_some] using honTime
  · -- each stop is recorded once, so its slot is its own
    have hnodup := hs.itinerary.order_nodup
    rw [← hids] at hnodup
    rw [DayPlan.lookup_foldl_record hnodup hv, DayPlan.slot, Visit.stop,
      DayPlan.stay_visitsFrom hv]

end MapServiceAgent.Native

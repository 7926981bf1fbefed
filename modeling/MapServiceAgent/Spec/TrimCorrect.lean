import MapServiceAgent.Native.TimelineNodes
import MapServiceAgent.Spec.RouteCorrect

/-!
# What trimming takes away

`fit_time_budget` drops single stops that are not pinned, leaves two on every
day it drops from, and mends the order and the legs.

## Key results

- `fitTimeBudget_ok`: the ways an unfailed job gets through the node
- `trimDays_keeps`: no day falls below two stops, no pin is dropped
- `dropPlaces_routed`: the rest is an itinerary again
-/

namespace MapServiceAgent.Native

variable {pf : Platform} {env : Env} {s s' : AgentState}

/-- The state holds an itinerary. -/
structure Routed (s : AgentState) (places : List Place) (order : List Int) (legs : List Leg) :
    Prop where
  places_eq : s.places = some places
  order_eq : s.visitOrder = some order
  legs_eq : s.legs = some legs
  itinerary : Itinerary places order legs

/-- The places of an itinerary are found by their numbers. -/
theorem Routed.placeById {places : List Place} {order : List Int} {legs : List Leg}
    (hs : Routed s places order legs) {p : Place} (hp : p ∈ places) :
    s.placeById p.placeId = some p := by
  rw [AgentState.placeById, hs.places_eq, Option.getD_some]
  exact keyedBy_of_mem hs.itinerary.ids_nodup hp

/-! ### Dropping places -/

/-- The rest of an itinerary is one, once its legs are mended. -/
theorem Itinerary.filter {places : List Place} {order : List Int} {legs legs' : List Leg}
    (h : Itinerary places order legs) (keep : Int → Bool)
    (hlegs : legs'.map Leg.ends = pairs (order.filter keep)) :
    Itinerary (places.filter fun p => keep p.placeId) (order.filter keep) legs' := by
  obtain ⟨visited, hperm, hdays, rfl⟩ := h.visits
  refine ⟨(List.filter_sublist.map _).nodup h.ids_nodup,
    ⟨visited.filter fun p => keep p.placeId, hperm.filter _, hdays.sublist List.filter_sublist, ?_⟩,
    hlegs⟩
  rw [List.filter_map]
  rfl

/-- A route without some of its places is a route through the others. -/
theorem dropPlaces_routed {places : List Place} {order : List Int} {legs : List Leg}
    {dropped : List Int} (hs : Routed s places order legs)
    (h : dropPlaces pf s dropped = .ok s') :
    ∃ legs', Routed s' (places.filter fun p => p.placeId ∉ dropped) (order.filter (· ∉ dropped))
      legs' := by
  unfold dropPlaces at h
  split at h
  · -- nothing to drop leaves the route as it is
    rename_i hnil
    cases h
    simp only [hnil, List.not_mem_nil, not_false_eq_true, decide_true, List.filter_true]
    exact ⟨legs, hs⟩
  · -- the legs are drawn anew between what is left
    obtain ⟨legs', hlegs, h⟩ := bind_eq_ok.mp h
    cases h
    rw [hs.order_eq, Option.getD_some] at hlegs
    refine ⟨legs', ?_, ?_, rfl, hs.itinerary.filter _ (rebuildLegs_ends hlegs)⟩
    · simp [hs.places_eq]
    · simp [hs.order_eq]

/-! ### What is dropped -/

/-- Not one of the pinned places. -/
def Unpinned (s : AgentState) (pid : Int) : Prop :=
  ((s.placeById pid).bind (·.contentId)).all (· ∉ s.pinnedContentIds.getD []) = true

/-- From `dropped` on to `dropped'` no pin went, and a day that lost a stop has
    two left. -/
structure Keeps (s : AgentState) (order dropped dropped' : List Int) : Prop where
  days : ∀ d, dayOrderOf s order dropped' d = dayOrderOf s order dropped d ∨
    2 ≤ (dayOrderOf s order dropped' d).length
  unpinned : ∀ pid ∈ dropped', pid ∈ dropped ∨ Unpinned s pid

/-- Dropping nothing keeps everything. -/
theorem Keeps.refl (s : AgentState) (order dropped : List Int) : Keeps s order dropped dropped :=
  ⟨fun _ => .inl rfl, fun _ h => .inl h⟩

/-- What two droppings keep, both of them keep. -/
theorem Keeps.trans {order a b c : List Int} (hab : Keeps s order a b) (hbc : Keeps s order b c) :
    Keeps s order a c := by
  refine ⟨fun d => ?_, fun pid h => ?_⟩
  · -- a day loses nothing the second time, or has two stops left
    rcases hbc.days d with h | h
    · rw [h]
      exact hab.days d
    · exact .inr h
  · -- what is dropped is dropped by one of the two
    rcases hbc.unpinned pid h with h | h
    · exact hab.unpinned pid h
    · exact .inr h

/-- The stop that goes is one of the day, and no pin. -/
theorem lastUnpinned_some {dayOrder : List Int} {pid : Int}
    (h : lastUnpinned s dayOrder = some pid) : pid ∈ dayOrder ∧ Unpinned s pid :=
  ⟨List.mem_reverse.mp (List.mem_of_find?_eq_some h),
    List.find?_some (p := fun pid => ((s.placeById pid).bind (·.contentId)).all
      (· ∉ s.pinnedContentIds.getD [])) h⟩

/-- The stops of a day are the visits to its places that were not dropped. -/
theorem mem_dayOrderOf {order dropped : List Int} {d pid : Int} :
    pid ∈ dayOrderOf s order dropped d ↔
      pid ∈ order ∧ (∃ p, s.placeById pid = some p ∧ p.day = d) ∧ pid ∉ dropped := by
  simp [dayOrderOf, Option.any_eq_true]

/-- Dropping one more stop takes it off its day and off no other. -/
theorem dayOrderOf_cons {order dropped : List Int} (horder : order.Nodup) (pid d : Int) :
    dayOrderOf s order (pid :: dropped) d = (dayOrderOf s order dropped d).erase pid := by
  unfold dayOrderOf
  rw [(horder.filter _).erase_eq_filter, List.filter_filter]
  refine List.filter_congr fun x _ => ?_
  by_cases hx : x = pid <;> simp [hx, Bool.and_comm]

/-- Dropping a stop of a day with more than two. -/
theorem Keeps.drop {order dropped : List Int} {day pid : Int} (horder : order.Nodup)
    (hmem : pid ∈ dayOrderOf s order dropped day) (hpid : Unpinned s pid)
    (hlen : keepMin < (dayOrderOf s order dropped day).length) :
    Keeps s order dropped (pid :: dropped) := by
  refine ⟨fun d => ?_, fun x hx => ?_⟩
  · rw [dayOrderOf_cons horder]
    by_cases hd : d = day
    · -- the day of the place loses one stop and keeps enough
      right
      subst hd
      rw [List.length_erase_of_mem hmem]
      unfold keepMin at hlen
      omega
    · left
      refine List.erase_of_not_mem fun hmem' => hd ?_
      obtain ⟨-, ⟨p, hp, rfl⟩, -⟩ := mem_dayOrderOf.mp hmem
      obtain ⟨-, ⟨q, hq, rfl⟩, -⟩ := mem_dayOrderOf.mp hmem'
      rw [Option.some.inj (hp.symm.trans hq)]
  · rcases List.mem_cons.mp hx with rfl | hx
    · exact .inr hpid
    · exact .inl hx

/-- Trimming a day keeps two stops on it, and its pins. -/
theorem trimDay_keeps {order dropped dropped' dayOrder : List Int} {day : Int} {rounds : Nat}
    {stay stay' : Int → Int} (horder : order.Nodup)
    (hday : dayOrder = dayOrderOf s order dropped day)
    (h : trimDay env s order day rounds dayOrder stay dropped = .ok (stay', dropped')) :
    Keeps s order dropped dropped' := by
  induction rounds generalizing dayOrder stay dropped with
  | zero =>
    cases h
    -- no rounds are left
    exact .refl ..
  | succ rounds ih =>
    rw [trimDay] at h
    obtain ⟨trial, -, h⟩ := bind_eq_ok.mp h
    split at h
    · cases h
      -- the day fits, or too few would be left
      exact .refl ..
    · rename_i hgo
      split at h
      · cases h
        -- every stop left is pinned
        exact .refl ..
      · -- the last stop not pinned goes, the next round sees the rest
        rename_i pid hpid
        obtain ⟨hmem, hunpinned⟩ := lastUnpinned_some hpid
        subst hday
        have hlen := not_le.mp (mt Or.inr hgo)
        exact (Keeps.drop horder hmem hunpinned hlen).trans
          (ih (dayOrderOf_cons horder pid day).symm h)

/-- No day falls below two stops, and no pin is dropped. -/
theorem trimDays_keeps {order dropped dropped' days : List Int} {stay stay' : Int → Int}
    (horder : order.Nodup) (h : trimDays env s order days stay dropped = .ok (stay', dropped')) :
    Keeps s order dropped dropped' := by
  induction days generalizing stay dropped with
  | nil =>
    cases h
    exact .refl ..
  | cons day days ih =>
    rw [trimDays] at h
    split at h
    · exact nomatch h
    · obtain ⟨⟨stay₁, dropped₁⟩, htrim, h⟩ := bind_eq_ok.mp h
      exact (trimDay_keeps horder rfl htrim).trans (ih h)

/-! ### The node -/

/-- The ways an unfailed job gets through the node. -/
inductive Fitted (env : Env) (s : AgentState) : AgentState → Prop where
  | kept : env.settings.timelineEnabled = false ∨ s.timelineOverflowDays.getD [] = [] →
      Fitted env s s
  | trimmed {stay : Int → Int} {dropped : List Int} {s₁ : AgentState} {layout : Layout} :
      s.timelineOverflowDays.getD [] ≠ [] → s.request.stage ≠ .route →
      trimDays env s (s.visitOrder.getD []) (s.timelineOverflowDays.getD [])
        (fun pid => ((s.timeline.getD []).lookup pid).elim 0 (·.stayMinutes)) [] =
        .ok (stay, dropped) →
      dropPlaces env.platform s dropped = .ok s₁ →
      planTimelineWith env s₁ stay ((s.visitOrder.getD []).filter (· ∉ dropped)) dropped =
        .ok layout →
      layout.overflowed = [] →
      Fitted env s (AgentState.addWarning { s₁ with
        timeline := some (withSources (oldStaySource s₁) layout.timeline)
        timelineStatus := some .trimmed
        timelineOverflowDays := none } warnTrimmed)

/-- The node leaves the trip as it is, or trimmed to fit. -/
theorem fitTimeBudget_ok (h : fitTimeBudget env s = .ok s') (hok : s'.failed = false) :
    Fitted env s s' := by
  unfold fitTimeBudget at h
  dsimp only at h
  split at h
  · -- the state had failed before
    rename_i hs
    cases h
    exact absurd (hs.symm.trans hok) (by decide)
  · split at h
    · -- no day runs over
      rename_i hkept
      cases h
      exact .kept hkept
    · rename_i hover
      split at h
      · cases h
        -- given places may not be dropped, so the trip is refused
        exact nomatch hok
      · rename_i hstage
        unfold trimTimeline at h
        obtain ⟨⟨stay, dropped⟩, htrim, h⟩ := bind_eq_ok.mp h
        obtain ⟨s₁, hdrop, h⟩ := bind_eq_ok.mp h
        obtain ⟨layout, hlayout, h⟩ := bind_eq_ok.mp h
        split at h
        · cases h
          -- it does not fit even trimmed
          exact nomatch hok
        · -- what is left fits
          rename_i hfits
          cases h
          exact .trimmed (mt Or.inr hover) (mt Or.inl hstage) htrim hdrop hlayout
            (not_not.mp hfits)

end MapServiceAgent.Native

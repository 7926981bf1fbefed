import MapServiceAgent.Spec.AgentGraphCorrect
import MapServiceAgent.Spec.SelectionCorrect
import MapServiceAgent.Spec.TrimCorrect

/-!
# Published itineraries

Whatever way a job comes to a result, the places, the visit order and the legs
it publishes fit each other, the days are days of the trip, and a drafted trip
leaves no day empty.

## Key results

- `DoneRun.fitted_routed`: the itinerary after the last node that touches it
- `published_itinerary`: what every published result satisfies
-/

namespace MapServiceAgent.Native

variable {env : Env} {jobId : String} {req : AgentRequest} {s s' : AgentState} {j j' : Job}

/-! ### Drafted places -/

/-- Places given for a route and loaded without a failure were all verified. -/
theorem loadGivenPlaces_ok (h : loadGivenPlaces env s = .ok s') (hok : s'.failed = false) :
    ∃ places, verifyFrom env s.request 0 s.request.given = .ok (some places) ∧
      s'.places = some places := by
  unfold loadGivenPlaces at h
  split at h
  · -- the state had failed before
    rename_i hs
    cases h
    exact absurd (hs.symm.trans hok) (by decide)
  · split at h
    · cases h
      exact nomatch hok
    · -- some places were given, and all of them verified
      rename_i hgiven
      obtain ⟨⟨places, s₁⟩, hverify, h⟩ := bind_eq_ok.mp h
      cases h
      obtain ⟨rfl, hplaces⟩ := verifySelectedPlaces_ok hverify hok
      exact ⟨places, hplaces, rfl⟩

/-- The given places of a route, verified one by one. -/
theorem GivenRun.verified (run : GivenRun env jobId req s)
    (hok : s.failed = false) :
    s.request = req ∧ req.stage = .route ∧ ValidRequest req ∧
      ∃ places, s.places = some places ∧
        verifyFrom env req 0 req.given = .ok (some places) := by
  have hfetched := unfailed_before env .loadGivenPlaces rfl run.load hok
  have hparsed := unfailed_before env .fetchWeather rfl run.fetch hfetched
  obtain ⟨hparse, hvalid⟩ := parseInput_ok run.parse hparsed
  -- the places verified are those of the request
  have hreq : run.fetched.request = req := by
    rw [fetchWeather_frame run.fetch, hparse]
    rfl
  obtain ⟨places, hverify, hplaces⟩ := loadGivenPlaces_ok run.load hok
  rw [hreq] at hverify
  refine ⟨?_, hreq ▸ run.stage, hvalid, places, hplaces, hverify⟩
  rw [loadGivenPlaces_frame run.load]
  exact hreq

/-- The places of a job, before they are brought into an order. -/
theorem Drafted.places (h : Drafted env jobId req s) (hok : s.failed = false) :
    s.request = req ∧ ValidRequest req ∧ ∃ places, s.places = some places ∧
      WellPlaced req places ∧ 2 ≤ places.length ∧ (req.stage ≠ .route → Covers req places) ∧
      (req.stage = .route → verifyFrom env req 0 req.given = .ok (some places)) := by
  cases h with
  | given run =>
    -- the places of a route were given and verified
    obtain ⟨hreq, hstage, hvalid, places, hplaces, hverify⟩ := run.verified hok
    have hverified := verifyFrom_verified hverify
    have hlen : places.length = req.given.length := by
      simpa using hverified.length_eq.symm
    exact ⟨hreq, hvalid, places, hplaces, verified_wellPlaced hvalid hverified,
      hlen ▸ hvalid.route_two hstage, fun hne => absurd hstage hne, fun _ => hverify⟩
  | @chosen j j' run _ choose =>
    -- those of the other stages were chosen for the plan
    have hranked := failed_of_runNode (n := .recommendPlaces) choose hok
    obtain ⟨hreq, hstage, hvalid, plan, hplan, hcovers⟩ := run.ranked hranked
    obtain ⟨pinned, places, hpinned, hrec, hplaces, -⟩ := recommendPlaces_ok choose hok
    have hwell := hrec.wellPlaced (by rwa [hreq]) hpinned
    have hcov := hrec.covers (by rwa [hreq]) hplan (by rwa [hreq])
    rw [hreq] at hwell hcov
    refine ⟨?_, hvalid, places, hplaces, hwell, hcov.two_le, fun _ => hcov,
      fun h => absurd h hstage⟩
    rw [recommendPlaces_frame choose]
    exact hreq

/-! ### Trimming keeps the coverage -/

/-- The stops of a day are its places. -/
theorem Routed.dayOrderOf_perm {places : List Place} {order : List Int} {legs : List Leg}
    (hs : Routed s places order legs) (dropped : List Int) (d : Int) :
    (dayOrderOf s order dropped d).Perm
      (((places.filter fun p => p.placeId ∉ dropped).filter fun p => p.day = d).map
        (·.placeId)) := by
  refine (hs.itinerary.order_perm.filter _).trans (.of_eq ?_)
  rw [List.filter_map, List.filter_filter]
  refine congrArg (List.map _) (List.filter_congr fun p hp => ?_)
  simp [hs.placeById hp]

/-- Dropping places as the loop does leaves a stop on every day. -/
theorem Covers.drop {places : List Place} {order : List Int} {legs : List Leg}
    {dropped : List Int} (hs : Routed s places order legs) (hcov : Covers req places)
    (hkeeps : Keeps s order [] dropped) :
    Covers req (places.filter fun p => p.placeId ∉ dropped) := by
  have hlen : ∀ d, (dayOrderOf s order dropped d).length =
      ((places.filter fun p => p.placeId ∉ dropped).filter fun p => p.day = d).length := fun d => by
    rw [(hs.dayOrderOf_perm dropped d).length_eq, List.length_map]
  have hle : ∀ d, (dayOrderOf s order dropped d).length ≤
      (places.filter fun p => p.placeId ∉ dropped).length := fun d => by
    rw [hlen]
    exact List.length_filter_le _ _
  constructor
  · -- a day with two stops left is enough
    by_cases htwo : ∃ d, 2 ≤ (dayOrderOf s order dropped d).length
    · obtain ⟨d, hd⟩ := htwo
      exact hd.trans (hle d)
    · -- no day lost a stop, so nothing was dropped
      rw [List.filter_eq_self.mpr fun p hp => ?_]
      · exact hcov.two_le
      · rcases hkeeps.days p.day with h | h
        · have hmem : p.placeId ∈ dayOrderOf s order [] p.day :=
            mem_dayOrderOf.mpr ⟨hs.itinerary.order_perm.mem_iff.mpr (List.mem_map_of_mem hp),
              ⟨p, hs.placeById hp, rfl⟩, List.not_mem_nil⟩
          rw [← h] at hmem
          exact decide_eq_true (mem_dayOrderOf.mp hmem).2.2
        · exact absurd ⟨_, h⟩ htwo
  · intro d hd hmax
    -- a day keeps two stops, or all it had
    have hpos : 0 < (dayOrderOf s order dropped d).length := by
      rcases hkeeps.days d with h | h
      · obtain ⟨p, hp, rfl⟩ := hcov.days d hd hmax
        rw [h]
        refine List.length_pos_of_mem (a := p.placeId) (mem_dayOrderOf.mpr ⟨?_, ?_, List.not_mem_nil⟩)
        · exact hs.itinerary.order_perm.mem_iff.mpr (List.mem_map_of_mem hp)
        · exact ⟨p, hs.placeById hp, rfl⟩
      · omega
    rw [hlen] at hpos
    obtain ⟨p, hp⟩ := List.exists_mem_of_length_pos hpos
    exact ⟨p, List.mem_of_mem_filter hp, of_decide_eq_true (List.mem_filter.mp hp).2⟩

/-! ### The whole run -/

/-- What a job without a timeline to trim, or with one, leaves of an itinerary. -/
theorem Fitted.routed {places : List Place} {order : List Int} {legs : List Leg}
    (h : Fitted env s s') (hs : Routed s places order legs) :
    ∃ dropped legs', Routed s' (places.filter fun p => p.placeId ∉ dropped)
        (order.filter (· ∉ dropped)) legs' ∧ Keeps s order [] dropped ∧
      (s.request.stage = .route → dropped = []) := by
  cases h with
  | kept _ =>
    -- nothing was dropped
    refine ⟨[], legs, ?_, .refl .., fun _ => rfl⟩
    simpa using hs
  | @trimmed stay dropped s₁ layout _ hstage htrim hdrop _ _ =>
    -- the legs are drawn anew between the places left
    rw [hs.order_eq, Option.getD_some] at htrim
    obtain ⟨legs', hs₁⟩ := dropPlaces_routed hs hdrop
    exact ⟨dropped, legs', ⟨hs₁.places_eq, hs₁.order_eq, hs₁.legs_eq, hs₁.itinerary⟩,
      trimDays_keeps hs.itinerary.order_nodup htrim, fun h => absurd h hstage⟩

/-- The route over drafted places. -/
theorem Drafted.routed (h : Drafted env jobId req s) (hs : s.failed = false)
    (hroute : recommendRoute env s = .ok s') (hok : s'.failed = false) :
    ∃ places legs, s.places = some places ∧
      s' = { s with
        visitOrder := some (visitOrderOf env.platform req places), legs := some legs } ∧
      Routed s' places (visitOrderOf env.platform req places) legs := by
  obtain ⟨rfl, hvalid, places, hplaces, hwell, -, -, hgiven⟩ := h.places hs
  -- a route that is not to be optimized was given day by day
  have hdays : s.request.stage = .route → s.request.optimize = false → DayByDay places := by
    intro hstage _
    have hpairwise := hvalid.route_order hstage
    rw [← verified_days (verifyFrom_verified (hgiven hstage))] at hpairwise
    exact List.pairwise_map.mp hpairwise
  obtain ⟨legs, hafter, hitinerary⟩ := recommendRoute_itinerary hroute hok hplaces
    hwell.ids_nodup hdays
  refine ⟨places, legs, hplaces, hafter, ?_⟩
  rw [hafter]
  exact ⟨hplaces, rfl, rfl, hitinerary⟩

/-- The timeline node leaves the itinerary alone. -/
theorem Routed.buildTimeline {places : List Place} {order : List Int} {legs : List Leg}
    (hs : Routed s places order legs) (h : buildTimeline env s = .ok s') :
    Routed s' places order legs := by
  rw [buildTimeline_frame h]
  exact ⟨hs.places_eq, hs.order_eq, hs.legs_eq, hs.itinerary⟩

/-- The state the timeline is built in. -/
theorem DoneRun.timed_routed {p : JobDonePayload} (run : DoneRun env jobId req p) :
    ∃ places legs, run.drafted.places = some places ∧ run.timed.request = req ∧
      Routed run.routed places (visitOrderOf env.platform req places) legs ∧
      Routed run.timed places (visitOrderOf env.platform req places) legs := by
  obtain ⟨hreq, -⟩ := run.draft.places run.drafted_ok
  obtain ⟨places, legs, hplaces, hrouted, hs⟩ :=
    run.draft.routed run.drafted_ok run.route run.routed_ok
  refine ⟨places, legs, hplaces, ?_, hs, hs.buildTimeline run.time⟩
  rw [buildTimeline_frame run.time, hrouted]
  exact hreq

/-- The itinerary after the last node that touches it: the drafted places but
    for those dropped. -/
theorem DoneRun.fitted_routed {p : JobDonePayload} (run : DoneRun env jobId req p) :
    ∃ drafted legs dropped legs', run.drafted.places = some drafted ∧
      Routed run.timed drafted (visitOrderOf env.platform req drafted) legs ∧
      Routed run.fitted (drafted.filter fun x => x.placeId ∉ dropped)
        ((visitOrderOf env.platform req drafted).filter (· ∉ dropped)) legs' ∧
      Keeps run.timed (visitOrderOf env.platform req drafted) [] dropped ∧
      (req.stage = .route → dropped = []) := by
  obtain ⟨drafted, legs, hdrafted, hreq, -, htimed⟩ := run.timed_routed
  obtain ⟨dropped, legs', hfitted, hkeeps, hroute⟩ :=
    (fitTimeBudget_ok run.fit run.fitted_ok).routed htimed
  rw [hreq] at hroute
  exact ⟨drafted, legs, dropped, legs', hdrafted, htimed, hfitted, hkeeps, hroute⟩

/-- No node of a run writes the request. -/
theorem DoneRun.fitted_request {p : JobDonePayload} (run : DoneRun env jobId req p) :
    run.fitted.request = req := by
  obtain ⟨_, _, -, hreq, -⟩ := run.timed_routed
  exact (congrArg AgentState.request (fitTimeBudget_frame run.fit)).trans hreq

/-- The itinerary that is published stays within the trip and covers its days. -/
theorem DoneRun.fitted_itinerary {p : JobDonePayload} (run : DoneRun env jobId req p) :
    ∃ places order legs, Routed run.fitted places order legs ∧
      (∀ x ∈ places, x.day ≤ numDays req) ∧ 2 ≤ places.length ∧
      (req.stage ≠ .route → Covers req places) := by
  obtain ⟨drafted, legs, dropped, legs', hdrafted, htimed, hfitted, hkeeps, hroute⟩ :=
    run.fitted_routed
  obtain ⟨-, -, places, hplaces, hwell, htwo, hcov, -⟩ := run.draft.places run.drafted_ok
  obtain rfl : drafted = places := Option.some.inj (hdrafted.symm.trans hplaces)
  refine ⟨_, _, legs', hfitted, fun x hx => hwell.day_le x (List.mem_of_mem_filter hx), ?_,
    fun hstage => (hcov hstage).drop htimed hkeeps⟩
  by_cases hstage : req.stage = .route
  · -- nothing is dropped from a route
    rw [hroute hstage]
    simpa using htwo
  · exact ((hcov hstage).drop htimed hkeeps).two_le

/-! ### The message -/

/-- Enriching a place leaves its number. -/
@[simp] theorem Place.placeId_enrich (p : Place) (reason bullets slot) :
    (p.enrich reason bullets slot).placeId = p.placeId := rfl

/-- And its day. -/
@[simp] theorem Place.day_enrich (p : Place) (reason bullets slot) :
    (p.enrich reason bullets slot).day = p.day := rfl

/-- What the last nodes do to a place: they add texts and the place's own slot. -/
def Enriches (timeline : List (Int × Slot)) (enrich : Place → Place) : Prop :=
  ∀ x, ∃ reason bullets, enrich x = x.enrich reason bullets (timeline.lookup x.placeId)

namespace Enriches

variable {timeline : List (Int × Slot)} {enrich : Place → Place} (h : Enriches timeline enrich)

include h

/-- Enriched, a place keeps its number. -/
theorem placeId (x : Place) : (enrich x).placeId = x.placeId := by
  obtain ⟨_, _, hx⟩ := h x
  rw [hx, Place.placeId_enrich]

/-- And its day. -/
theorem day (x : Place) : (enrich x).day = x.day := by
  obtain ⟨_, _, hx⟩ := h x
  rw [hx, Place.day_enrich]

/-- So do the places of a list. -/
theorem map_placeId (places : List Place) :
    (places.map enrich).map (·.placeId) = places.map (·.placeId) := by
  rw [List.map_map]
  exact List.map_congr_left fun x _ => h.placeId x

/-- The days of a list stay as well. -/
theorem map_day (places : List Place) :
    (places.map enrich).map (·.day) = places.map (·.day) := by
  rw [List.map_map]
  exact List.map_congr_left fun x _ => h.day x

/-- Places in day order are in day order when enriched. -/
theorem dayByDay {visited : List Place} (hvisited : DayByDay visited) :
    DayByDay (visited.map enrich) := by
  refine List.pairwise_map.mpr (hvisited.imp fun {x y} hxy => ?_)
  rwa [h.day, h.day]

/-- An itinerary stays one. -/
theorem itinerary {places : List Place} {order : List Int} {legs : List Leg}
    (hplaces : Itinerary places order legs) : Itinerary (places.map enrich) order legs := by
  obtain ⟨visited, hperm, hdays, horder⟩ := hplaces.visits
  refine ⟨by rw [h.map_placeId]; exact hplaces.ids_nodup,
    ⟨visited.map enrich, hperm.map _, h.dayByDay hdays, ?_⟩, hplaces.legs_ends⟩
  rw [h.map_placeId, horder]

end Enriches

/-- Without a failure the last node writes reason, summary and slot on each place. -/
theorem buildPayload_ok {places : List Place} (h : buildPayload s = .ok s')
    (hok : s.failed = false) (hplaces : s.places = some places) :
    s' = { s with places := some (places.map fun x =>
      x.enrich ((s.reasons.getD []).lookup x.placeId) ((s.summaries.getD []).lookup x.placeId)
        ((s.timeline.getD []).lookup x.placeId)) } := by
  unfold buildPayload at h
  rw [if_neg (by simp [hok])] at h
  simp only [hplaces, Except.ok.injEq] at h
  exact h.symm

/-- A field that could be read was there. -/
theorem item_ok {α : Type} {v : Option α} {x : α} (h : item v = .ok x) : v = some x := by
  cases v with
  | none => exact nomatch h
  | some y => exact congrArg some (Except.ok.inj h)

/-- The message of an unfailed state says what the state holds. -/
theorem donePayload_ok {p : JobDonePayload} (h : donePayload s = .ok p) (hok : s.failed = false) :
    p.places = s.places ∧ p.visitOrder = s.visitOrder ∧ p.legs = s.legs ∧
      p.timelineStatus = s.timelineStatus := by
  unfold donePayload at h
  rw [if_neg (by simp [hok])] at h
  obtain ⟨places, hplaces, h⟩ := bind_eq_ok.mp h
  obtain ⟨order, horder, h⟩ := bind_eq_ok.mp h
  obtain ⟨legs, hlegs, h⟩ := bind_eq_ok.mp h
  cases h
  exact ⟨(item_ok hplaces).symm, (item_ok horder).symm, (item_ok hlegs).symm, rfl⟩

/-- The message carries the itinerary, its places enriched. -/
theorem DoneRun.published {p : JobDonePayload} (run : DoneRun env jobId req p)
    {places : List Place} {order : List Int} {legs : List Leg}
    (hs : Routed run.fitted places order legs) :
    ∃ enrich, Enriches (run.fitted.timeline.getD []) enrich ∧
      p.places = some (places.map enrich) ∧ p.visitOrder = some order ∧ p.legs = some legs ∧
      p.timelineStatus = run.fitted.timelineStatus := by
  obtain ⟨hplaces, horder, hlegs, htimeline, hstatus, -, -⟩ := run.reason.kept
  have hbuilt := buildPayload_ok run.build run.reasoned_ok (hplaces.trans hs.places_eq)
  obtain ⟨hp, hpOrder, hpLegs, hpStatus⟩ := donePayload_ok run.publish run.ok
  rw [hbuilt] at hp hpOrder hpLegs hpStatus
  exact ⟨_, fun x => ⟨_, _, by rw [← htimeline]⟩, hp, hpOrder.trans (horder.trans hs.order_eq),
    hpLegs.trans (hlegs.trans hs.legs_eq), hpStatus.trans hstatus⟩

/-- What every published result satisfies: distinct numbers, an order that
    visits each place once and day after day, legs along it, and, unless the user
    set the route, no day of the trip without a place. -/
theorem published_itinerary {p : JobDonePayload} (h : p ∈ runJob env jobId req)
    (hdone : p.status = .done) :
    ∃ places order legs,
      p.places = some places ∧ p.visitOrder = some order ∧ p.legs = some legs ∧
      (places.map (·.placeId)).Nodup ∧ order.Perm (places.map (·.placeId)) ∧
      legs.length + 1 = order.length ∧
      (∀ i (hi : i + 1 < order.length), ∃ leg, legs[i]? = some leg ∧
        leg.fromPlaceId = order[i] ∧ leg.toPlaceId = order[i + 1]) ∧
      (∃ visited : List Place, visited.Perm places ∧ visited.map (·.placeId) = order ∧
        visited.Pairwise fun x y => x.day ≤ y.day) ∧
      (∀ x ∈ places, 1 ≤ x.day ∧ x.day ≤ numDays req) ∧
      (req.stage ≠ .route → 2 ≤ places.length ∧
        ∀ d, 1 ≤ d → d ≤ numDays req → ∃ x ∈ places, x.day = d) := by
  obtain ⟨run⟩ := doneRun_of_mem h hdone
  obtain ⟨places, order, legs, hs, hdays, htwo, hcov⟩ := run.fitted_itinerary
  obtain ⟨enrich, henrich, hplaces, horder, hlegs, -⟩ := run.published hs
  have hitinerary := henrich.itinerary hs.itinerary
  have hlen : order.length = places.length := by
    rw [hs.itinerary.order_perm.length_eq, List.length_map]
  have hends := hs.itinerary.legs_ends
  -- one leg for each pair of neighbours
  have hlegsLen : legs.length = order.length - 1 := by
    rw [← length_pairs, ← hends, List.length_map]
  refine ⟨_, _, _, hplaces, horder, hlegs, hitinerary.ids_nodup, hitinerary.order_perm, by omega,
    fun i hi => ?_, ?_, ?_, fun hstage => ⟨?_, ?_⟩⟩
  · -- the leg at a place is that of the pair there
    have hpair := pairs_getElem order i hi
    rw [← hends, List.getElem?_map, Option.map_eq_some_iff] at hpair
    obtain ⟨leg, hleg, hpair⟩ := hpair
    exact ⟨leg, hleg, congrArg Prod.fst hpair, congrArg Prod.snd hpair⟩
  · -- the order is that of the visits, which go day by day
    obtain ⟨visited, hperm, hday, hvisits⟩ := hitinerary.visits
    exact ⟨visited, hperm, hvisits.symm, hday⟩
  · intro x hx
    obtain ⟨y, hy, rfl⟩ := List.mem_map.mp hx
    exact ⟨Place.one_le_day _, (henrich.day y).symm ▸ hdays y hy⟩
  · rw [List.length_map]
    exact htwo
  · intro d hd hle
    obtain ⟨y, hy, hday⟩ := (hcov hstage).days d hd hle
    exact ⟨enrich y, List.mem_map_of_mem hy, (henrich.day y).trans hday⟩

/-- The sample trip is published with one leg between its two places. -/
theorem published_itinerary_sample :
    ∃ p ∈ runJob sampleEnv "j" (sampleTrip .mode1), ∃ places order legs,
      p.places = some places ∧ p.visitOrder = some order ∧ p.legs = some legs ∧
      2 ≤ places.length ∧ order.Perm (places.map (·.placeId)) ∧
      legs.length + 1 = order.length := by
  obtain ⟨p, hp, hdone, -⟩ := sampleTrip_done .mode1
  have hmem : p ∈ runJob sampleEnv "j" (sampleTrip .mode1) := hp ▸ List.mem_singleton_self p
  obtain ⟨places, order, legs, hplaces, horder, hlegs, -, hperm, hlen, -, -, -, hcov⟩ :=
    published_itinerary hmem hdone
  exact ⟨p, hmem, places, order, legs, hplaces, horder, hlegs, (hcov (by decide)).1, hperm, hlen⟩

end MapServiceAgent.Native

import MapServiceAgent.ForStd.Except
import MapServiceAgent.Native.RouteNode

/-!
# The route node orders what it is given

Nearest neighbours and 2-opt only rearrange the places of a day, and every leg
joins two consecutive stops.

## Key results

- `tour_perm`: a tour visits each place of the day once
- `orderPlaces_visits`: the visit order rearranges the places, day after day
- `rebuildLegs_ends`: the legs follow the visit order
- `recommendRoute_itinerary`: what the node leaves
-/

namespace MapServiceAgent.Native

variable {pf : Platform} {env : Env} {s s' : AgentState}

/-! ### One day -/

/-- The least of some elements is one of them. -/
theorem minBy_mem {α : Type} (key : α → PyFloat) (first : α) (rest : List α) :
    minBy key first rest ∈ first :: rest := by
  unfold minBy
  induction rest generalizing first with
  | nil => exact List.mem_cons_self
  | cons x rest ih =>
    rw [List.foldl_cons]
    rcases List.mem_cons.mp (ih (if key x < key first then x else first)) with h | h
    · -- it is the first or the second
      rw [h]
      split
      · exact List.mem_cons_of_mem _ List.mem_cons_self
      · exact List.mem_cons_self
    · -- or a later one
      exact List.mem_cons_of_mem _ (List.mem_cons_of_mem _ h)

/-- The nearest-neighbour tour visits each place once. -/
theorem nearestTour_perm (n : Nat) (last : Place) (places : List Place) (hn : places.length ≤ n) :
    (nearestTour pf n last places).Perm places := by
  induction n generalizing last places with
  | zero => exact .refl _
  | succ n ih =>
    cases places with
    | nil => exact .refl _
    | cons p ps =>
      -- the nearest one is taken out, and the tour goes on from there
      have hmem := minBy_mem (last.kmTo pf) p ps
      have hlen : ((p :: ps).erase (minBy (last.kmTo pf) p ps)).length ≤ n := by
        rw [List.length_erase_of_mem hmem]
        simpa using hn
      exact ((ih _ _ hlen).cons _).trans (List.perm_cons_erase hmem).symm

/-- The stops up to `i`, the segment after it up to `k`, and the rest. -/
theorem segment_split {α : Type} (l : List α) {i k : Nat} (h : i ≤ k) :
    l.take (i + 1) ++ (l.drop (i + 1)).take (k - i) ++ l.drop (k + 1) = l := by
  have hdrop : l.drop (k + 1) = (l.drop (i + 1)).drop (k - i) := by
    rw [List.drop_drop]
    congr 1
    omega
  rw [hdrop, List.append_assoc, List.take_append_drop, List.take_append_drop]

/-- Turning a segment around moves no stop out of the tour. -/
theorem reverseSegment_perm {α : Type} (l : List α) {i k : Nat} (h : i ≤ k) :
    (reverseSegment l i k).Perm l := by
  unfold reverseSegment
  have hturned := (List.reverse_perm ((l.drop (i + 1)).take (k - i))).append_left (l.take (i + 1))
  exact (hturned.append_right (l.drop (k + 1))).trans (.of_eq (segment_split l h))

/-- What one pair of positions does to a round. -/
def twoOptStep (pf : Platform) (r : Bool × List Place) (x : Nat × Nat) : Bool × List Place :=
  if shortens pf r.2 x.1 x.2 then (true, reverseSegment r.2 x.1 x.2) else r

/-- A round tries its pairs one after the other. -/
theorem twoOptRound_foldl (stops : List Place) :
    twoOptRound pf stops = (twoOptPairs stops.length).foldl (twoOptStep pf) (false, stops) := rfl

/-- The pairs of a round are the segments between two stops that are not neighbours. -/
theorem mem_twoOptPairs {n : Nat} {x : Nat × Nat} :
    x ∈ twoOptPairs n ↔ x.1 + 2 ≤ x.2 ∧ x.2 < n := by
  obtain ⟨i, k⟩ := x
  simp only [twoOptPairs, List.mem_flatMap, List.mem_map, List.mem_range'_1, List.mem_range,
    Prod.mk.injEq]
  constructor
  · rintro ⟨_, hi, _, ⟨hle, hlt⟩, rfl, rfl⟩
    omega
  · rintro ⟨hle, hlt⟩
    exact ⟨i, by omega, k, ⟨hle, by omega⟩, rfl, rfl⟩

/-- Whatever pairs are tried, the stops stay the same. -/
theorem twoOptSteps_perm {steps : List (Nat × Nat)} (hle : ∀ x ∈ steps, x.1 ≤ x.2)
    (r : Bool × List Place) : (steps.foldl (twoOptStep pf) r).2.Perm r.2 := by
  induction steps generalizing r with
  | nil => exact .refl _
  | cons x steps ih =>
    rw [List.foldl_cons]
    apply (ih (fun y hy => hle y (List.mem_cons_of_mem _ hy)) _).trans
    unfold twoOptStep
    split
    · -- the tour gets shorter, and the segment is turned
      exact reverseSegment_perm _ (hle x List.mem_cons_self)
    · exact .refl _

/-- So does a round. -/
theorem twoOptRound_perm (pf : Platform) (places : List Place) :
    (twoOptRound pf places).2.Perm places := by
  rw [twoOptRound_foldl]
  apply twoOptSteps_perm
  intro x hx
  have hgap := (mem_twoOptPairs.mp hx).1
  omega

/-- And any number of rounds. -/
theorem twoOpt_perm (rounds : Nat) (places : List Place) :
    (twoOpt pf rounds places).Perm places := by
  induction rounds generalizing places with
  | zero => exact .refl _
  | succ rounds ih =>
    have hround := twoOptRound_perm pf places
    unfold twoOpt
    split
    · rename_i next hnext
      rw [hnext] at hround
      -- the round improved the tour, and there is another one
      exact (ih next).trans hround
    · rename_i next hnext
      rw [hnext] at hround
      exact hround

/-- A tour visits each place of the day once. -/
theorem tour_perm (pf : Platform) (places : List Place) :
    ∃ visited : List Place, visited.Perm places ∧ tour pf places = visited.map (·.placeId) := by
  cases places with
  | nil => exact ⟨[], .nil, rfl⟩
  | cons first rest =>
    unfold tour
    dsimp only
    split
    · exact ⟨_, .refl _, rfl⟩
    · exact ⟨_, (twoOpt_perm _ _).trans ((nearestTour_perm _ _ _ le_rfl).cons _), rfl⟩

/-! ### All days -/

/-- Places in an order a traveller can follow: day after day. -/
def DayByDay (visited : List Place) : Prop := visited.Pairwise fun p q => p.day ≤ q.day

/-- The visit order rearranges the places, day after day. -/
theorem orderPlaces_visits (pf : Platform) (places : List Place) :
    ∃ visited : List Place, visited.Perm places ∧ DayByDay visited ∧
      orderPlaces pf places = visited.map (·.placeId) := by
  -- each day is toured on its own, the days come in order
  choose group hperm htour using fun day => tour_perm pf (places.filter fun p => p.day = day)
  have hdays := sortedBy_perm id (places.map (·.day)).dedup
  refine ⟨(sortedBy id (places.map (·.day)).dedup).flatMap group, ?_, ?_, ?_⟩
  · refine (List.Perm.flatMap_left _ fun day _ => hperm day).trans ?_
    refine flatMap_filter_perm (·.day) _ places (hdays.nodup_iff.mpr (List.nodup_dedup _)) ?_
    intro p hp
    rw [mem_sortedBy, List.mem_dedup]
    exact List.mem_map_of_mem hp
  · refine pairwise_flatMap_group (fun p : Place => p.day) (fun day p hp => ?_)
      (sortedBy_pairwise id _)
    exact of_decide_eq_true (List.mem_filter.mp ((hperm day).mem_iff.mp hp)).2
  · rw [orderPlaces, List.map_flatMap]
    exact congrArg (List.flatMap · _) (funext htour)

/-! ### Legs -/

/-- The two places a leg joins. -/
def Leg.ends (leg : Leg) : Int × Int := (leg.fromPlaceId, leg.toPlaceId)

/-- A leg that is built has the ends it was built with. -/
theorem Leg.build_ends {a b : Int} {mode : Mobility} {km : PyFloat} {minutes : Int} {leg : Leg}
    (h : Leg.build a b mode km minutes = .ok leg) : leg.ends = (a, b) := by
  unfold Leg.build at h
  split at h <;> cases h
  rfl

/-- A leg that is rebuilt has the ends it was asked for. -/
theorem rebuildLeg_ends {a b : Int} {leg : Leg} (h : rebuildLeg pf s a b = .ok leg) :
    leg.ends = (a, b) := by
  unfold rebuildLeg at h
  dsimp only at h
  split at h
  · -- the leg there was, found under its ends
    rename_i old hold
    cases h
    exact (keyedBy_some hold).2
  · split at h
    · -- a new one between two places
      obtain ⟨minutes, -, h⟩ := bind_eq_ok.mp h
      exact Leg.build_ends h
    · -- a new one, with an end that is no place
      exact Leg.build_ends h

/-- The legs follow the visit order. -/
theorem rebuildLegs_ends {order : List Int} {legs : List Leg}
    (h : rebuildLegs pf s order = .ok legs) : legs.map Leg.ends = pairs order := by
  have hlegs := mapM_eq_ok.mp h
  clear h
  generalize pairs order = stretches at hlegs
  induction hlegs with
  | nil => rfl
  | cons hleg _ ih => rw [List.map_cons, rebuildLeg_ends hleg, ih]

/-! ### Itineraries -/

/-- An order of visits and legs that fit the places. -/
structure Itinerary (places : List Place) (order : List Int) (legs : List Leg) : Prop where
  ids_nodup : (places.map (·.placeId)).Nodup
  visits : ∃ visited : List Place, visited.Perm places ∧ DayByDay visited ∧
    order = visited.map (·.placeId)
  legs_ends : legs.map Leg.ends = pairs order

/-- The order visits each place once. -/
theorem Itinerary.order_perm {places : List Place} {order : List Int} {legs : List Leg}
    (h : Itinerary places order legs) : order.Perm (places.map (·.placeId)) := by
  obtain ⟨visited, hperm, -, rfl⟩ := h.visits
  exact hperm.map _

/-- No place is visited twice. -/
theorem Itinerary.order_nodup {places : List Place} {order : List Int} {legs : List Leg}
    (h : Itinerary places order legs) : order.Nodup :=
  h.order_perm.nodup_iff.mpr h.ids_nodup

/-- The order keeps to the days and, where the user set it, to the user. -/
theorem visitOrderOf_visits (pf : Platform) {req : AgentRequest} {places : List Place}
    (hroute : req.stage = .route → req.optimize = false → DayByDay places) :
    ∃ visited : List Place, visited.Perm places ∧ DayByDay visited ∧
      visitOrderOf pf req places = visited.map (·.placeId) := by
  unfold visitOrderOf
  split
  · rename_i h
    exact ⟨places, .refl _, hroute h.1 h.2, rfl⟩
  · exact orderPlaces_visits pf places

/-- What the node leaves of an unfailed job. -/
theorem recommendRoute_ok (h : recommendRoute env s = .ok s') (hok : s'.failed = false) :
    ∃ places legs, s.places = some places ∧ places ≠ [] ∧
      rebuildLegs env.platform { s with legs := some [] }
        (visitOrderOf env.platform s.request places) = .ok legs ∧
      s' = { s with
        visitOrder := some (visitOrderOf env.platform s.request places), legs := some legs } := by
  unfold recommendRoute at h
  split at h
  · rename_i hs
    cases h
    exact absurd (hs.symm.trans hok) (by decide)
  · split at h
    · exact nomatch h
    · cases h
      exact nomatch hok
    · -- some places, so their order and legs are written
      rename_i places hne hplaces
      obtain ⟨legs, hlegs, h⟩ := bind_eq_ok.mp h
      cases h
      exact ⟨places, legs, hplaces, hne, hlegs, rfl⟩

/-- The route node draws an itinerary through the places it was given. -/
theorem recommendRoute_itinerary {places : List Place} (h : recommendRoute env s = .ok s')
    (hok : s'.failed = false) (hplaces : s.places = some places)
    (hnodup : (places.map (·.placeId)).Nodup)
    (hroute : s.request.stage = .route → s.request.optimize = false → DayByDay places) :
    ∃ legs, s' = { s with
        visitOrder := some (visitOrderOf env.platform s.request places), legs := some legs } ∧
      Itinerary places (visitOrderOf env.platform s.request places) legs := by
  obtain ⟨places', legs, hplaces', -, hlegs, rfl⟩ := recommendRoute_ok h hok
  obtain rfl : places = places' := Option.some.inj (hplaces.symm.trans hplaces')
  exact ⟨legs, rfl, hnodup, visitOrderOf_visits _ hroute, rebuildLegs_ends hlegs⟩

end MapServiceAgent.Native

import Mathlib.Data.List.DropRight
import MapServiceAgent.Spec.DayIsolation

/-!
# Trimming day by day

On each day that runs over the stays are cut to ten minutes, and then its stops
go from the end, pins left out, as long as they must. A trip can be planned with
whatever is left of it, so no trial raises.

## Key results

- `Trip.trial`: what is left can be planned
- `trimDay_spec`: what the inner loop drops from a day
- `trimDays_spec`: what the outer loop drops from all of them
-/

namespace MapServiceAgent.Native

variable {pf : Platform} {env : Env} {s t : AgentState} {places : List Place} {order : List Int}
  {legs : List Leg}

/-! ### Drawing legs -/

/-- The distance between any two points of the country is a length. -/
structure GreatCircle (pf : Platform) : Prop where
  length : ∀ lat₁ lng₁ lat₂ lng₂, NumberIn 33 43 lat₁ → NumberIn 124 132 lng₁ →
    NumberIn 33 43 lat₂ → NumberIn 124 132 lng₂ →
      ∃ km, pf.straightKm lat₁ lng₁ lat₂ lng₂ = .fin km ∧ 0 ≤ km

/-- Both ends of a way are in the country, so it has a length. -/
theorem Place.kmTo_length (hgc : GreatCircle pf) (p q : Place) :
    ∃ km, p.kmTo pf q = .fin km ∧ 0 ≤ km :=
  hgc.length _ _ _ _ p.bounds.1 p.bounds.2 q.bounds.1 q.bounds.2

/-- A length that is rounded stays one. -/
theorem round2_nonneg {km : ℚ} (h : 0 ≤ km) : PyFloat.leb 0 (PyFloat.fin km).round2 = true := by
  have hround : (0 : ℚ) ≤ roundHalfEven (km * 100) / 100 :=
    div_nonneg (by exact_mod_cast roundHalfEven_nonneg (by positivity)) (by norm_num)
  exact decide_eq_true hround

/-- Between any two places, there or not, a leg can be drawn. -/
theorem returns_rebuildLeg (hgc : GreatCircle pf) (a b : Int) : Returns (rebuildLeg pf s a b) := by
  unfold rebuildLeg
  dsimp only
  split
  · -- the leg there was
    exact returns_ok _
  · split
    · -- both ends are places, so the distance is a number
      rename_i p q _ _
      obtain ⟨km, hkm, hnonneg⟩ := p.kmTo_length hgc q
      rw [hkm]
      unfold walkMinutes Leg.build
      dsimp only [bind, Except.bind]
      rw [dif_pos ⟨round2_nonneg hnonneg, by omega⟩]
      exact returns_ok _
    · -- an end is missing, and the leg is empty
      unfold Leg.build
      rw [dif_pos ⟨by decide, le_rfl⟩]
      exact returns_ok _

/-- And so all the legs of an order. -/
theorem returns_rebuildLegs (hgc : GreatCircle pf) (order : List Int) :
    Returns (rebuildLegs pf s order) :=
  returns_mapM.mpr fun p _ => returns_rebuildLeg hgc p.1 p.2

/-! ### A trip to be fitted -/

/-- An itinerary of which any part can be planned. -/
structure Trip (env : Env) (s : AgentState) (places : List Place) (order : List Int)
    (legs : List Leg) : Prop extends Routed s places order legs where
  great : GreatCircle env.platform

/-- The two ways of counting the stops of a day agree. -/
theorem Trip.dayOrderOf_derived {legs' : List Leg} {dropped : List Int}
    (h : Trip env s places order legs)
    (ht : Derived env s t (places.filter fun p => p.placeId ∉ dropped) (order.filter (· ∉ dropped))
      legs') (d : Int) :
    dayOrderOf t (order.filter (· ∉ dropped)) [] d = dayOrderOf s order dropped d := by
  unfold dayOrderOf
  rw [List.filter_filter]
  refine List.filter_congr fun pid hpid => ?_
  obtain ⟨p, hp, rfl⟩ := List.mem_map.mp (h.itinerary.order_perm.mem_iff.mp hpid)
  -- a dropped place is on no day, a kept one on the day it was on
  by_cases hdropped : p.placeId ∈ dropped
  · simp [hdropped]
  · have hkept : p ∈ places.filter fun p => p.placeId ∉ dropped :=
      List.mem_filter.mpr ⟨hp, by simpa using hdropped⟩
    rw [h.toRouted.placeById hp, ht.toRouted.placeById hkept]
    simp [hdropped]

/-- What is left can be planned, and its days run over where their stops do. -/
theorem Trip.trial (h : Trip env s places order legs) (stay : Int → Int) (dropped : List Int) :
    ∃ trial, planTimelineWith env s stay order dropped = .ok trial ∧
      ∀ d, d ∈ trial.overflowed ↔ DayOver env s stay (dayOrderOf s order dropped d) := by
  obtain ⟨legs', hlegs⟩ := returns_rebuildLegs h.great (order.filter (· ∉ dropped))
  -- the probe is the trip without the dropped places, with new legs
  have hprobe : probeState env.platform s order dropped = .ok { s with
      places := some (places.filter fun p => p.placeId ∉ dropped)
      visitOrder := some (order.filter (· ∉ dropped))
      legs := some legs' } := by
    unfold probeState
    dsimp only
    rw [hlegs, h.places_eq]
    rfl
  have ht : Derived env s { s with
      places := some (places.filter fun p => p.placeId ∉ dropped)
      visitOrder := some (order.filter (· ∉ dropped))
      legs := some legs' } (places.filter fun p => p.placeId ∉ dropped)
        (order.filter (· ∉ dropped)) legs' :=
    ⟨⟨rfl, rfl, rfl, h.itinerary.filter _ (rebuildLegs_ends hlegs)⟩, rfl, hlegs⟩
  refine ⟨_, by rw [planTimelineWith, hprobe]; rfl, fun d => ?_⟩
  rw [mem_overflowed_planTimeline ht, h.dayOrderOf_derived ht]

/-! ### Dropping from one day -/

instance (s : AgentState) : DecidablePred (Unpinned s) := fun _ =>
  inferInstanceAs (Decidable (_ = true))

/-- The stops that may go. -/
def unpinned (s : AgentState) (stops : List Int) : List Int := stops.filter (Unpinned s ·)

/-- The stop the loop takes out is the last one that may go. -/
theorem lastUnpinned_eq (s : AgentState) (stops : List Int) :
    lastUnpinned s stops = (unpinned s stops).getLast? := by
  unfold lastUnpinned unpinned
  rw [← List.head?_reverse, ← List.filter_reverse, List.head?_filter]
  refine congrArg (List.find? · _) (funext fun pid => ?_)
  exact Bool.eq_iff_iff.mpr decide_eq_true_iff.symm

/-- A stay on the day is cut to the floor, if it was longer. -/
theorem floorStays_of_mem {stops : List Int} {stay : Int → Int} {pid : Int} (h : pid ∈ stops) :
    floorStays stops stay pid = min floorMin (stay pid) := by
  unfold floorStays
  split
  · rename_i hcut
    -- it was longer, and is cut
    obtain ⟨-, hlt⟩ := hcut
    omega
  · rename_i hcut
    -- it was short enough already
    have hle := not_lt.mp fun hlt => hcut ⟨h, hlt⟩
    omega

/-- A stay on another day is left as it is. -/
theorem floorStays_of_not_mem {stops : List Int} {stay : Int → Int} {pid : Int}
    (h : pid ∉ stops) : floorStays stops stay pid = stay pid :=
  if_neg fun hcut => h hcut.1

/-- Cutting a part of what is cut changes nothing. -/
theorem floorStays_floorStays {stops stops' : List Int} (h : stops' ⊆ stops) (stay : Int → Int) :
    floorStays stops' (floorStays stops stay) = floorStays stops stay := by
  funext pid
  by_cases hpid : pid ∈ stops'
  · rw [floorStays_of_mem hpid, floorStays_of_mem (h hpid)]
    omega
  · rw [floorStays_of_not_mem hpid]

/-- What is dropped besides leaves the day as well. -/
theorem dayOrderOf_append (s : AgentState) (order a dropped : List Int) (d : Int) :
    dayOrderOf s order (a ++ dropped) d = (dayOrderOf s order dropped d).filter (· ∉ a) := by
  unfold dayOrderOf
  rw [List.filter_filter]
  refine List.filter_congr fun pid _ => ?_
  by_cases h : pid ∈ a <;> simp [h]

/-- The stops of a day with the last `k` that may go taken out. -/
def withoutLast (s : AgentState) (stops : List Int) (k : Nat) : List Int :=
  stops.filter (· ∉ (unpinned s stops).rtake k)

/-- As many stops go from a day as must: with each one less it runs over, though
    its stays are cut, and more than two are left. -/
def Needed (env : Env) (s : AgentState) (stay : Int → Int) (stops : List Int) (k : Nat) : Prop :=
  k ≤ (unpinned s stops).length ∧ ∀ j < k, keepMin + j < stops.length ∧
    DayOver env s (floorStays stops stay) (withoutLast s stops j)

/-- With none taken out the stops are what they were. -/
theorem withoutLast_zero (s : AgentState) (stops : List Int) : withoutLast s stops 0 = stops := by
  unfold withoutLast
  rw [List.rtake_zero]
  exact List.filter_eq_self.mpr fun _ _ => decide_eq_true List.not_mem_nil

/-- One stop less: what is left may lose its last ones. -/
theorem unpinned_erase {stops init : List Int} {pid : Int} (hnodup : stops.Nodup)
    (h : unpinned s stops = init ++ [pid]) : unpinned s (stops.erase pid) = init := by
  -- the stop taken out comes only once
  have hinit : pid ∉ init := by
    have hnodup' : (unpinned s stops).Nodup := hnodup.filter _
    rw [h] at hnodup'
    exact fun hmem => List.disjoint_of_nodup_append hnodup' hmem List.mem_cons_self
  have hself : init.filter (fun x => decide (x ≠ pid)) = init :=
    List.filter_eq_self.mpr fun x hx => decide_eq_true fun heq => hinit (heq ▸ hx)
  calc unpinned s (stops.erase pid)
    _ = (unpinned s stops).filter fun x => x ≠ pid := by
      unfold unpinned
      rw [hnodup.erase_eq_filter, List.filter_filter, List.filter_filter]
      refine List.filter_congr fun x _ => ?_
      by_cases hx : x = pid <;> simp [hx]
    _ = init := by
      rw [h, List.filter_append, hself]
      simp

/-- Taking one out and then `k` of the rest takes out `k + 1`. -/
theorem withoutLast_succ {stops init : List Int} {pid : Int} (hnodup : stops.Nodup)
    (h : unpinned s stops = init ++ [pid]) (k : Nat) :
    withoutLast s (stops.erase pid) k = withoutLast s stops (k + 1) := by
  unfold withoutLast
  rw [unpinned_erase hnodup h, h, List.rtake_concat_succ, hnodup.erase_eq_filter,
    List.filter_filter]
  refine List.filter_congr fun x _ => ?_
  by_cases hx : x = pid <;> simp [hx]

/-- What the inner loop does to a day: all its stays are cut, and as many of its
    last stops go as must. -/
theorem trimDay_spec (h : Trip env s places order legs) {day : Int} {rounds : Nat}
    {stops dropped : List Int} {stay : Int → Int} (hstops : stops = dayOrderOf s order dropped day)
    (hrounds : rounds = 0 → floorStays stops stay = stay) :
    ∃ k, trimDay env s order day rounds stops stay dropped =
        .ok (floorStays stops stay, (unpinned s stops).rtake k ++ dropped) ∧
      Needed env s stay stops k := by
  -- the rounds left bound the stops that can still go
  induction rounds generalizing stops stay dropped with
  | zero =>
    refine ⟨0, ?_, Nat.zero_le _, fun j hj => absurd hj (Nat.not_lt_zero _)⟩
    rw [trimDay, hrounds rfl, List.rtake_zero, List.nil_append]
  | succ rounds ih =>
    have hnodup : stops.Nodup := hstops ▸ h.itinerary.order_nodup.filter _
    obtain ⟨trial, htrial, hover⟩ := h.trial (floorStays stops stay) dropped
    rw [trimDay, htrial]
    dsimp only [bind, Except.bind]
    -- nothing goes
    have hstop : ∃ k, (pure (floorStays stops stay, dropped) : Except PyExn _) =
        .ok (floorStays stops stay, (unpinned s stops).rtake k ++ dropped) ∧
          Needed env s stay stops k :=
      ⟨0, by rw [List.rtake_zero]; rfl, Nat.zero_le _, fun j hj => absurd hj (Nat.not_lt_zero _)⟩
    split
    · -- the day fits, or too few would be left
      exact hstop
    rename_i hgo
    obtain ⟨hday, hlen⟩ := not_or.mp hgo
    rw [not_not, hover day, ← hstops] at hday
    rw [not_le] at hlen
    rw [lastUnpinned_eq]
    split
    · -- every stop left is pinned
      exact hstop
    · rename_i pid hpid
      -- the last stop that may go does
      obtain ⟨init, hinit⟩ := List.getLast?_eq_some_iff.mp hpid
      have hmem : pid ∈ stops := by
        refine List.mem_of_mem_filter (p := (Unpinned s ·)) ?_
        rw [show stops.filter (Unpinned s ·) = init ++ [pid] from hinit]
        exact List.mem_append_right _ List.mem_cons_self
      have hsub : stops.erase pid ⊆ stops := List.erase_subset
      have hlen' := List.length_erase_of_mem hmem
      -- stays are cut once; cutting them again changes nothing
      have hcut := floorStays_floorStays hsub stay
      obtain ⟨k, hk, hle, hneeded⟩ := ih
        (by rw [hstops, dayOrderOf_cons h.itinerary.order_nodup]) fun _ => hcut
      rw [hcut, unpinned_erase hnodup hinit] at hk
      rw [unpinned_erase hnodup hinit] at hle
      refine ⟨k + 1, ?_, ?_, fun j hj => ?_⟩
      · -- the one taken out here comes after those of the later rounds
        rw [hk, hinit, List.rtake_concat_succ, List.append_assoc]
        rfl
      · rw [hinit, List.length_append, List.length_singleton]
        omega
      · -- before the first stop went the day was over; later, by induction
        cases j with
        | zero =>
          rw [withoutLast_zero]
          exact ⟨hlen, hday⟩
        | succ j =>
          obtain ⟨hmore, hover'⟩ := hneeded j (by omega)
          rw [hcut, withoutLast_succ hnodup hinit] at hover'
          exact ⟨by omega, hover'⟩

/-! ### Dropping from all days -/

/-- A stop has one day. -/
theorem not_mem_dayOrderOf {dropped dropped' : List Int} {d d' pid : Int} (hne : d ≠ d')
    (h : pid ∈ dayOrderOf s order dropped d) : pid ∉ dayOrderOf s order dropped' d' := by
  intro h'
  obtain ⟨-, ⟨p, hp, rfl⟩, -⟩ := mem_dayOrderOf.mp h
  obtain ⟨-, ⟨q, hq, rfl⟩, -⟩ := mem_dayOrderOf.mp h'
  rw [hp] at hq
  exact hne (congrArg (fun x : Place => x.day) (Option.some.inj hq))

/-- What may be taken from a day is a stop of it. -/
theorem mem_of_mem_unpinned_rtake {stops : List Int} {k : Nat} {pid : Int}
    (h : pid ∈ (unpinned s stops).rtake k) : pid ∈ stops :=
  List.mem_of_mem_filter (List.mem_of_mem_drop h)

/-- Stops of one day are no matter to another. -/
theorem dayOrderOf_other {dropped : List Int} {d day : Int} {k : Nat} (hne : d ≠ day) :
    dayOrderOf s order ((unpinned s (dayOrderOf s order dropped day)).rtake k ++ dropped) d =
      dayOrderOf s order dropped d := by
  rw [dayOrderOf_append]
  refine List.filter_eq_self.mpr fun pid hpid => decide_eq_true fun hmem => ?_
  exact not_mem_dayOrderOf hne hpid (mem_of_mem_unpinned_rtake hmem)

/-- Only the stays of the day itself count. -/
theorem needed_congr {stay stay' : Int → Int} {stops : List Int} {k : Nat}
    (h : ∀ pid ∈ stops, stay pid = stay' pid) (hneeded : Needed env s stay stops k) :
    Needed env s stay' stops k := by
  refine ⟨hneeded.1, fun j hj => ⟨(hneeded.2 j hj).1, ?_⟩⟩
  refine (dayOver_congr fun pid hpid => ?_).mp (hneeded.2 j hj).2
  have hmem : pid ∈ stops := List.mem_of_mem_filter hpid
  rw [floorStays_of_mem hmem, floorStays_of_mem hmem, h pid hmem]

/-- A day with stops is trimmed first, then the days after it. -/
theorem trimDays_cons {day : Int} {days dropped dropped' : List Int} {stay stay' : Int → Int}
    (hne : dayOrderOf s order dropped day ≠ [])
    (h : trimDay env s order day (dayOrderOf s order dropped day).length
      (dayOrderOf s order dropped day) stay dropped = .ok (stay', dropped')) :
    trimDays env s order (day :: days) stay dropped = trimDays env s order days stay' dropped' := by
  rw [trimDays]
  split
  · rename_i hnil
    exact absurd hnil hne
  · rw [h]
    rfl

/-- What the outer loop does: to each of the days what the inner one does, to
    the others nothing. -/
theorem trimDays_spec (h : Trip env s places order legs) {days dropped : List Int}
    {stay : Int → Int} (hdays : days.Nodup) (hne : ∀ d ∈ days, dayOrderOf s order dropped d ≠ []) :
    ∃ (k : Int → Nat) (stay' : Int → Int) (dropped' : List Int),
      trimDays env s order days stay dropped = .ok (stay', dropped') ∧
      (∀ pid, pid ∈ dropped' ↔ pid ∈ dropped ∨
        ∃ d ∈ days, pid ∈ (unpinned s (dayOrderOf s order dropped d)).rtake (k d)) ∧
      (∀ pid, (∃ d ∈ days, pid ∈ dayOrderOf s order dropped d) → stay' pid = min floorMin (stay pid)) ∧
      (∀ pid, (∀ d ∈ days, pid ∉ dayOrderOf s order dropped d) → stay' pid = stay pid) ∧
      ∀ d ∈ days, Needed env s stay (dayOrderOf s order dropped d) (k d) := by
  induction days generalizing stay dropped with
  | nil =>
    refine ⟨fun _ => 0, stay, dropped, rfl, fun pid => ?_, fun pid hpid => ?_, fun _ _ => rfl,
      fun d hd => absurd hd List.not_mem_nil⟩
    · simp
    · obtain ⟨d, hd, -⟩ := hpid
      exact absurd hd List.not_mem_nil
  | cons day days ih =>
    obtain ⟨hday, hdays⟩ := List.nodup_cons.mp hdays
    have hother : ∀ d ∈ days, d ≠ day := fun d hd heq => hday (heq ▸ hd)
    set stops := dayOrderOf s order dropped day with hstops
    obtain ⟨k₀, htrim, hneeded⟩ := trimDay_spec h hstops
      fun hzero => absurd (List.length_eq_zero_iff.mp hzero) (hne day List.mem_cons_self)
    -- what one day drops is on no other day
    have hsame : ∀ d ∈ days, dayOrderOf s order ((unpinned s stops).rtake k₀ ++ dropped) d =
        dayOrderOf s order dropped d := fun d hd => dayOrderOf_other (hother d hd)
    obtain ⟨k, stay', dropped', hrest, hmem, hcut, hkept, hrests⟩ :=
      ih hdays fun d hd => by
        rw [hsame d hd]
        exact hne d (List.mem_cons_of_mem _ hd)
    have hk : ∀ d ∈ days, Function.update k day k₀ d = k d :=
      fun d hd => Function.update_of_ne (hother d hd) _ _
    refine ⟨Function.update k day k₀, stay', dropped', ?_, fun pid => ?_, fun pid hpid => ?_,
      fun pid hpid => ?_, List.forall_mem_cons.mpr ⟨?_, fun d hd => ?_⟩⟩
    · -- this day first, then the rest
      rw [trimDays_cons (hne day List.mem_cons_self) htrim, hrest]
    · -- dropped on this day, or on one of the others
      rw [hmem, List.mem_append, List.exists_mem_cons_iff, Function.update_self, ← hstops]
      constructor
      · rintro ((hpid | hpid) | ⟨d, hd, hpid⟩)
        · exact Or.inr (Or.inl hpid)
        · exact Or.inl hpid
        · rw [hsame d hd, ← hk d hd] at hpid
          exact Or.inr (Or.inr ⟨d, hd, hpid⟩)
      · rintro (hpid | hpid | ⟨d, hd, hpid⟩)
        · exact Or.inl (Or.inr hpid)
        · exact Or.inl (Or.inl hpid)
        · rw [hk d hd, ← hsame d hd] at hpid
          exact Or.inr ⟨d, hd, hpid⟩
    · -- the stays of this day are cut here, those of the others later
      obtain ⟨d, hd, hpid⟩ := hpid
      rcases List.mem_cons.mp hd with rfl | hd
      · have hno : ∀ d' ∈ days, pid ∉ dayOrderOf s order
            ((unpinned s stops).rtake k₀ ++ dropped) d' := fun d' hd' =>
          not_mem_dayOrderOf (hother d' hd').symm hpid
        rw [hkept pid hno, floorStays_of_mem hpid]
      · rw [hcut pid ⟨d, hd, (hsame d hd).symm ▸ hpid⟩,
          floorStays_of_not_mem (not_mem_dayOrderOf (hother d hd) hpid)]
    · -- a stay of none of the days is never touched
      obtain ⟨hnot, hnots⟩ := List.forall_mem_cons.mp hpid
      rw [hkept pid fun d hd => (hsame d hd).symm ▸ hnots d hd, floorStays_of_not_mem hnot]
    · rw [Function.update_self]
      exact hneeded
    · rw [hk d hd]
      -- what a later day needs is not changed by the stays of this one
      have hneeded' := hrests d hd
      rw [hsame d hd] at hneeded'
      refine needed_congr (fun pid hpid => ?_) hneeded'
      exact floorStays_of_not_mem (not_mem_dayOrderOf (hother d hd) hpid)

end MapServiceAgent.Native

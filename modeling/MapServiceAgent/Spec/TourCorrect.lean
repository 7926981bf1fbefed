import Mathlib.Tactic.Linarith
import MapServiceAgent.ForStd.Path
import MapServiceAgent.Spec.AgentGraphCorrect
import MapServiceAgent.Spec.RouteCorrect

/-!
# The route of a day is short

Under a symmetric distance, and with sums taken exactly, a tour starts at the
first place of its day and is no longer than the path that always goes on to the
nearest place. Where 2-opt comes to an end by itself, no turned segment would
make it shorter by more than what counts as shorter.

## Key results

- `shortens_iff`: the comparison of 2-opt is one of whole tours
- `twoOptRound_spec`: what one round does
- `twoOpt_settled`: what it means that the rounds were enough
- `orderPlaces_short`: the visit order of a trip, day by day
-/

namespace MapServiceAgent.Native

variable {pf : Platform} {dist : Place → Place → ℚ}

/-- The distance between places, as a number, the same both ways. -/
structure Distances (pf : Platform) (dist : Place → Place → ℚ) : Prop where
  kmTo : ∀ p q : Place, p.kmTo pf q = .fin (dist p q)
  symm : ∀ p q, dist p q = dist q p

/-! ### The nearest place -/

/-- The least of a list, with all before it greater. -/
theorem minBy_split {α : Type} (key : α → ℚ) (first : α) (rest : List α) :
    ∃ before after, first :: rest =
        before ++ minBy (fun x => .fin (key x)) first rest :: after ∧
      (∀ x ∈ before, key (minBy (fun x => .fin (key x)) first rest) < key x) ∧
      ∀ x ∈ after, key (minBy (fun x => .fin (key x)) first rest) ≤ key x := by
  induction rest generalizing first with
  | nil => exact ⟨[], [], rfl, by simp, by simp⟩
  | cons x rest ih =>
    have hstep : minBy (fun x => .fin (key x)) first (x :: rest) =
        minBy (fun x => .fin (key x)) (if key x < key first then x else first) rest := by
      simp only [minBy, List.foldl_cons, PyFloat.fin_lt_fin]
    rw [hstep]
    by_cases hlt : key x < key first
    · -- a strictly smaller element takes over, and lies before the rest
      rw [if_pos hlt]
      obtain ⟨before, after, hsplit, hbefore, hafter⟩ := ih x
      generalize minBy (fun x => PyFloat.fin (key x)) x rest = m at *
      have hle : key m ≤ key x := by
        cases before with
        | nil =>
          rw [(List.cons.inj hsplit).1]
        | cons y before =>
          rw [(List.cons.inj hsplit).1]
          exact (hbefore y List.mem_cons_self).le
      refine ⟨first :: before, after, by rw [hsplit]; rfl, ?_, hafter⟩
      intro y hy
      rcases List.mem_cons.mp hy with rfl | hy
      · exact hle.trans_lt hlt
      · exact hbefore y hy
    · -- the first of equals stays
      rw [if_neg hlt]
      obtain ⟨before, after, hsplit, hbefore, hafter⟩ := ih first
      generalize minBy (fun x => PyFloat.fin (key x)) first rest = m at *
      cases before with
      | nil =>
        -- the first element is the smallest itself: the new one goes after it
        obtain ⟨rfl, rfl⟩ := List.cons.inj hsplit
        refine ⟨[], x :: rest, rfl, by simp, ?_⟩
        intro y hy
        rcases List.mem_cons.mp hy with rfl | hy
        · exact not_lt.mp hlt
        · exact hafter y hy
      | cons y before =>
        -- the smallest lies further back: the new element is one more before it
        obtain ⟨rfl, rfl⟩ := List.cons.inj hsplit
        have hm := hbefore first List.mem_cons_self
        refine ⟨first :: x :: before, after, rfl, ?_, hafter⟩
        intro y hy
        rcases List.mem_cons.mp hy with rfl | hy
        · exact hm
        · rcases List.mem_cons.mp hy with rfl | hy
          · exact hm.trans_le (not_lt.mp hlt)
          · exact hbefore y (List.mem_cons_of_mem _ hy)

/-- The loop of `_tour` goes on to the nearest place. -/
theorem nearestTour_nearest (hdist : Distances pf dist) (n : Nat) (last : Place)
    (places : List Place) (hn : places.length ≤ n) :
    NearestFrom dist last places (nearestTour pf n last places) := by
  induction n generalizing last places with
  | zero =>
    rw [List.length_eq_zero_iff.mp (Nat.le_zero.mp hn)]
    exact .done last
  | succ n ih =>
    cases places with
    | nil => exact .done last
    | cons p ps =>
      have hkey : last.kmTo pf = fun q => .fin (dist last q) := funext (hdist.kmTo last)
      obtain ⟨before, after, hsplit, hbefore, hafter⟩ := minBy_split (dist last) p ps
      rw [nearestTour, hkey]
      generalize minBy (fun q => PyFloat.fin (dist last q)) p ps = next at *
      -- `erase` removes the first occurrence, which is the one found
      have hnot : next ∉ before := fun h => lt_irrefl _ (hbefore next h)
      rw [hsplit] at hn ⊢
      rw [List.erase_append_right _ hnot, List.erase_cons_head]
      refine .step hbefore hafter (ih next (before ++ after) ?_)
      simp only [List.length_append, List.length_cons] at hn ⊢
      omega

/-! ### One reversal -/

/-- How much shorter a tour must get for a segment to be turned around. -/
def shorteningMargin : ℚ := 1 / 1000000000

/-- The comparison `after < before - 1e-9`. -/
theorem shorter_iff (after before : ℚ) :
    decide (PyFloat.fin after < PyFloat.fin before + .fin (-1 / 1000000000)) = true ↔
      after < before - shorteningMargin := by
  rw [decide_eq_true_iff]
  show PyFloat.fin after < PyFloat.fin (before + -1 / 1000000000) ↔ _
  rw [PyFloat.fin_lt_fin, neg_div, ← sub_eq_add_neg]
  rfl

/-- The comparison of 2-opt is one of whole tours. -/
theorem shortens_iff (hdist : Distances pf dist) {stops : List Place} {i k : Nat} (hik : i < k)
    (hk : k < stops.length) : shortens pf stops i k = true ↔
      pathLength dist (reverseSegment stops i k) < pathLength dist stops - shorteningMargin := by
  -- the stops at the ends of the segment, read off the three parts
  have ha : (stops.take (i + 1)).getLast? = some stops[i] := by
    rw [List.getLast?_take, if_neg (by omega), Nat.add_sub_cancel,
      List.getElem?_eq_getElem (by omega)]
    rfl
  have hb : ((stops.drop (i + 1)).take (k - i)).head? = some stops[i + 1] := by
    rw [List.head?_take, if_neg (by omega), List.head?_drop, List.getElem?_eq_getElem (by omega)]
  have hc : ((stops.drop (i + 1)).take (k - i)).getLast? = some stops[k] := by
    rw [List.getLast?_take, if_neg (by omega), List.getElem?_drop,
      show i + 1 + (k - i - 1) = k by omega, List.getElem?_eq_getElem hk]
    rfl
  have hsplit := segment_split stops (i := i) (k := k) (by omega)
  unfold shortens reverseSegment
  rw [List.getElem?_eq_getElem (show i < stops.length by omega),
    List.getElem?_eq_getElem (show i + 1 < stops.length by omega), List.getElem?_eq_getElem hk]
  dsimp only
  simp only [hdist.kmTo]
  by_cases hend : k + 1 < stops.length
  · -- a stop follows the segment: two legs are exchanged
    have he : (stops.drop (k + 1)).head? = some stops[k + 1] := by
      rw [List.head?_drop, List.getElem?_eq_getElem hend]
    have hturn := pathLength_turn hdist.symm ha hb hc he
    rw [hsplit] at hturn
    rw [List.getElem?_eq_getElem hend]
    refine (shorter_iff (_ + _) (_ + _)).trans ?_
    constructor <;> intro h <;> linarith
  · -- the segment is the end of the tour: only the leg into it changes
    have hr : stops.drop (k + 1) = [] := List.drop_eq_nil_of_le (by omega)
    have hturn := pathLength_turn_end hdist.symm ha hb hc
    rw [hr, List.append_nil] at hsplit ⊢
    rw [hsplit] at hturn
    rw [List.getElem?_eq_none (by omega)]
    refine (shorter_iff _ _).trans ?_
    constructor <;> intro h <;> linarith

/-- Turning a segment leaves as many stops. -/
theorem length_reverseSegment {α : Type} (l : List α) {i k : Nat} (h : i ≤ k) :
    (reverseSegment l i k).length = l.length :=
  (reverseSegment_perm l h).length_eq

/-- The first stop stays the first. -/
theorem head?_reverseSegment {α : Type} (l : List α) (i k : Nat) :
    (reverseSegment l i k).head? = l.head? := by
  cases l with
  | nil => simp [reverseSegment]
  | cons a l => rfl

/-! ### One round -/

/-- How the tours before and after some steps compare. -/
structure Tightened (pf : Platform) (dist : Place → Place → ℚ) (steps : List (Nat × Nat))
    (r r' : Bool × List Place) : Prop where
  length_eq : r'.2.length = r.2.length
  head_eq : r'.2.head? = r.2.head?
  shorter : pathLength dist r'.2 ≤ pathLength dist r.2
  /-- Without an improvement nothing was changed, as nothing called for it. -/
  settled : r'.1 = false → r.1 = false ∧ r' = r ∧ ∀ x ∈ steps, shortens pf r.2 x.1 x.2 = false

/-- The pairs of a round only ever make the tour shorter, and say whether they did. -/
theorem twoOptSteps_spec (hdist : Distances pf dist) {n : Nat} {steps : List (Nat × Nat)}
    (hsteps : ∀ x ∈ steps, x.1 < x.2 ∧ x.2 < n) (r : Bool × List Place) (hr : r.2.length = n) :
    Tightened pf dist steps r (steps.foldl (twoOptStep pf) r) := by
  induction steps generalizing r with
  | nil => exact ⟨rfl, rfl, le_rfl, fun h => ⟨h, rfl, by simp⟩⟩
  | cons x steps ih =>
    obtain ⟨hlt, hn⟩ := hsteps x List.mem_cons_self
    rw [List.foldl_cons]
    have hrest := fun r hr => ih (fun y hy => hsteps y (List.mem_cons_of_mem _ hy)) r hr
    by_cases hshort : shortens pf r.2 x.1 x.2 = true
    · -- a turned segment makes the tour shorter by more than the margin
      rw [twoOptStep, if_pos hshort]
      have hlen := length_reverseSegment r.2 hlt.le
      obtain ⟨hlength, hhead, hle, hsettled⟩ :=
        hrest (true, reverseSegment r.2 x.1 x.2) (hlen.trans hr)
      have hcut := (shortens_iff hdist hlt (hr ▸ hn)).mp hshort
      refine ⟨hlength.trans hlen, hhead.trans (head?_reverseSegment _ _ _), ?_, fun h => ?_⟩
      · have hmargin : 0 ≤ shorteningMargin := by unfold shorteningMargin; norm_num
        linarith
      · -- a round that improved something says so
        cases (hsettled h).1
    · -- nothing changes, and this pair is settled
      rw [twoOptStep, if_neg hshort]
      obtain ⟨hlength, hhead, hle, hsettled⟩ := hrest r hr
      refine ⟨hlength, hhead, hle, fun h => ?_⟩
      obtain ⟨hflag, hsame, hall⟩ := hsettled h
      refine ⟨hflag, hsame, fun y hy => ?_⟩
      rcases List.mem_cons.mp hy with rfl | hy
      · exact Bool.eq_false_iff.mpr hshort
      · exact hall y hy

/-- So does a round. -/
theorem twoOptRound_spec (hdist : Distances pf dist) (stops : List Place) :
    Tightened pf dist (twoOptPairs stops.length) (false, stops) (twoOptRound pf stops) := by
  rw [twoOptRound_foldl]
  apply twoOptSteps_spec hdist ?_ _ rfl
  intro x hx
  obtain ⟨hle, hlt⟩ := mem_twoOptPairs.mp hx
  exact ⟨by omega, hlt⟩

/-! ### All rounds -/

/-- Turning no segment around would make the tour shorter. -/
def LocallyShortest (dist : Place → Place → ℚ) (stops : List Place) : Prop :=
  ∀ i k, i + 2 ≤ k → k < stops.length →
    pathLength dist stops - shorteningMargin ≤ pathLength dist (reverseSegment stops i k)

/-- Whether one of the rounds improves nothing, so that `_two_opt` breaks off. -/
def stopsEarly (pf : Platform) : (rounds : Nat) → List Place → Bool
  | 0, _ => false
  | rounds + 1, stops => !(twoOptRound pf stops).1 || stopsEarly pf rounds (twoOptRound pf stops).2

/-- A round that improved the tour is followed by another one. -/
theorem twoOpt_succ (rounds : Nat) (stops : List Place) : twoOpt pf (rounds + 1) stops =
    if (twoOptRound pf stops).1 then twoOpt pf rounds (twoOptRound pf stops).2
    else (twoOptRound pf stops).2 := by
  rw [twoOpt]
  split <;> rename_i h <;> rw [h] <;> rfl

/-- The first stop stays where it is. -/
theorem twoOpt_head? (hdist : Distances pf dist) (rounds : Nat) (stops : List Place) :
    (twoOpt pf rounds stops).head? = stops.head? := by
  induction rounds generalizing stops with
  | zero => rfl
  | succ rounds ih =>
    have hround := twoOptRound_spec hdist stops
    rw [twoOpt_succ]
    split
    · exact (ih _).trans hround.head_eq
    · exact hround.head_eq

/-- 2-opt never makes a tour longer. -/
theorem twoOpt_le (hdist : Distances pf dist) (rounds : Nat) (stops : List Place) :
    pathLength dist (twoOpt pf rounds stops) ≤ pathLength dist stops := by
  induction rounds generalizing stops with
  | zero => exact le_rfl
  | succ rounds ih =>
    have hround := twoOptRound_spec hdist stops
    rw [twoOpt_succ]
    split
    · exact (ih _).trans hround.shorter
    · exact hround.shorter

/-- When a round was left over, no segment is worth turning around. -/
theorem twoOpt_settled (hdist : Distances pf dist) {rounds : Nat} {stops : List Place}
    (h : stopsEarly pf rounds stops = true) : LocallyShortest dist (twoOpt pf rounds stops) := by
  induction rounds generalizing stops with
  | zero => cases h
  | succ rounds ih =>
    rw [twoOpt_succ]
    unfold stopsEarly at h
    cases himproved : (twoOptRound pf stops).1 with
    | true =>
      -- another round follows
      rw [himproved] at h
      exact ih h
    | false =>
      -- the round that stops the loop looked at every pair of the tour it leaves
      obtain ⟨-, hsame, hall⟩ := (twoOptRound_spec hdist stops).settled himproved
      have hstops : (twoOptRound pf stops).2 = stops := congrArg Prod.snd hsame
      rw [if_neg (by simp), hstops]
      intro i k hik hk
      have hno := hall (i, k) (mem_twoOptPairs.mpr ⟨hik, hk⟩)
      by_contra hlt
      rw [(shortens_iff hdist (by omega) hk).mpr (not_le.mp hlt)] at hno
      cases hno

/-! ### The days of a trip -/

/-- How the places of a day are visited. -/
structure RoutedDay (pf : Platform) (dist : Place → Place → ℚ) (stops visited : List Place) :
    Prop where
  perm : visited.Perm stops
  head_eq : visited.head? = stops.head?
  short : ∀ first rest, stops = first :: rest → 3 ≤ stops.length →
    ∃ nearest, NearestFrom dist first rest nearest ∧
      visited = twoOpt pf maxRounds (first :: nearest) ∧
      pathLength dist visited ≤ pathLength dist (first :: nearest) ∧
      (stopsEarly pf maxRounds (first :: nearest) = true → LocallyShortest dist visited)

/-- The tour of a day is a permutation of its stops, no longer than the
    nearest-neighbour one. -/
theorem tour_short (hdist : Distances pf dist) (stops : List Place) :
    ∃ visited, RoutedDay pf dist stops visited ∧ tour pf stops = visited.map (·.placeId) := by
  cases stops with
  | nil => exact ⟨[], ⟨.nil, rfl, by simp⟩, rfl⟩
  | cons first rest =>
    by_cases hfew : (first :: rest).length ≤ 2
    · -- one or two places are left as they come
      refine ⟨first :: rest, ⟨.refl _, rfl, fun _ _ _ hmany => ?_⟩, ?_⟩
      · omega
      · rw [tour, if_pos hfew]
    · -- from three on: nearest neighbours first, then 2-opt
      have hnearest := nearestTour_nearest hdist rest.length first rest le_rfl
      have hperm : (first :: nearestTour pf rest.length first rest).Perm (first :: rest) :=
        (nearestTour_perm rest.length first rest le_rfl).cons first
      refine ⟨twoOpt pf maxRounds (first :: nearestTour pf rest.length first rest), ⟨?_, ?_, ?_⟩, ?_⟩
      · -- every place once
        exact (twoOpt_perm _ _).trans hperm
      · -- the first one first
        exact twoOpt_head? hdist _ _
      · intro first' rest' heq _
        obtain ⟨rfl, rfl⟩ := List.cons.inj heq
        exact ⟨_, hnearest, rfl, twoOpt_le hdist _ _, twoOpt_settled hdist⟩
      · rw [tour, if_neg hfew]

/-- The visit order of a trip: its days one after the other, each beginning at
    its first place and no longer than the way that always goes on to the nearest;
    and where 2-opt breaks off, no segment is worth turning around. -/
theorem orderPlaces_short (pf : Platform) (dist : Place → Place → ℚ) (hdist : Distances pf dist)
    (places : List Place) :
    (orderPlaces pf places).Perm (places.map (·.placeId)) ∧
    (∃ (days : List Int) (visited : Int → List Place),
      days.Pairwise (· < ·) ∧ (∀ d, d ∈ days ↔ ∃ p ∈ places, p.day = d) ∧
      orderPlaces pf places = days.flatMap (fun d => (visited d).map (·.placeId)) ∧
      ∀ d ∈ days, RoutedDay pf dist (places.filter fun p => p.day = d) (visited d)) ∧
    ∀ stops, stopsEarly pf maxRounds stops = true →
      LocallyShortest dist (twoOpt pf maxRounds stops) := by
  refine ⟨?_, ?_, fun stops => twoOpt_settled hdist⟩
  · -- the visit order rearranges the places
    obtain ⟨visited, hperm, -, horder⟩ := orderPlaces_visits pf places
    rw [horder]
    exact hperm.map _
  · -- day by day, the tours of the days put together
    choose visited hvisited htour using
      fun day => tour_short hdist (places.filter fun p => p.day = day)
    have hdays := sortedBy_perm id (places.map (·.day)).dedup
    refine ⟨sortedBy id (places.map (·.day)).dedup, visited, ?_, fun d => ?_, ?_,
      fun d _ => hvisited d⟩
    · have hnodup := hdays.nodup_iff.mpr (List.nodup_dedup _)
      exact ((sortedBy_pairwise id _).and hnodup).imp fun h => lt_of_le_of_ne h.1 h.2
    · rw [mem_sortedBy, List.mem_dedup, List.mem_map]
    · rw [orderPlaces]
      exact congrArg (List.flatMap · _) (funext htour)

/-- The number a coordinate stands for. -/
def coordinate : PyFloat → ℚ
  | .fin q => q
  | _ => 0

/-- Distances along the streets of a grid. -/
def gridDistance (p q : Place) : ℚ :=
  |coordinate p.lat - coordinate q.lat| + |coordinate p.lng - coordinate q.lng|

/-- The sample platform with distances along a grid. -/
def gridPlatform : Platform :=
  { samplePlatform with
    straightKm := fun lat lng lat' lng' =>
      .fin (|coordinate lat - coordinate lat'| + |coordinate lng - coordinate lng'|) }

/-- They are the same in both directions. -/
theorem gridPlatform_distances : Distances gridPlatform gridDistance where
  kmTo _ _ := rfl
  symm p q := by
    unfold gridDistance
    rw [abs_sub_comm (coordinate p.lat), abs_sub_comm (coordinate p.lng)]

/-- A place somewhere on the grid. -/
def gridFields (i : Int) (lat lng : ℚ) : PlaceFields where
  placeId := i
  day := 1
  name := "p"
  address := ""
  lat := .fin lat
  lng := .fin lng
  recommendedVisitTime := ""
  contentId := none
  source := none
  category := none
  categoryGroupCode := none
  phone := none
  placeUrl := none
  crsDstncKm := none
  crsTotalMin := none
  crsLevel := none
  brdDiv := none
  gpxUrl := none
  routeIdx := none
  grounded := true

/-- Four places whose nearest-neighbour path, in their own order, crosses itself. -/
def gridPlaces : List Place :=
  [{ gridFields 0 39 129 with valid := by decide }, { gridFields 1 38 128 with valid := by decide },
    { gridFields 2 39 127 with valid := by decide }, { gridFields 3 37 129 with valid := by decide }]

/-- 2-opt turns the middle of that path around. -/
theorem orderPlaces_short_grid : orderPlaces gridPlatform gridPlaces = [0, 2, 1, 3] ∧
    (orderPlaces gridPlatform gridPlaces).Perm [0, 1, 2, 3] ∧
    LocallyShortest gridDistance (twoOpt gridPlatform maxRounds gridPlaces) := by
  obtain ⟨hperm, -, hsettled⟩ :=
    orderPlaces_short gridPlatform gridDistance gridPlatform_distances gridPlaces
  exact ⟨by decide +kernel, hperm, hsettled gridPlaces (by decide +kernel)⟩

end MapServiceAgent.Native

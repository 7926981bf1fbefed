import Mathlib.Data.List.Dedup
import MapServiceAgent.Native.InputNodes

/-!
# The route node

`recommend_route` orders the places of each day by the nearest neighbour and
2-opt, and draws one leg between any two consecutive stops.
-/

namespace MapServiceAgent.Native

/-! ### A tour of one day -/

/-- `_straight_km` between two places. -/
def Place.kmTo (pf : Platform) (p q : Place) : PyFloat := pf.straightKm p.lat p.lng q.lat q.lng

/-- `min(first :: rest, key=key)`: the first of the least. -/
def minBy {α : Type} (key : α → PyFloat) (first : α) (rest : List α) : α :=
  rest.foldl (fun best x => if key x < key best then x else best) first

/-- The nearest-neighbour loop of `_tour` after `last`; `n` counts what remains. -/
def nearestTour (pf : Platform) : (n : Nat) → (last : Place) → List Place → List Place
  | 0, _, remaining => remaining
  | _ + 1, _, [] => []
  | n + 1, last, p :: ps =>
    -- of places equally near the first is taken
    let nearest := minBy (last.kmTo pf) p ps
    nearest :: nearestTour pf n nearest ((p :: ps).erase nearest)

/-- `tour[i + 1:k + 1] = reversed(tour[i + 1:k + 1])`. -/
def reverseSegment {α : Type} (tour : List α) (i k : Nat) : List α :=
  tour.take (i + 1) ++ ((tour.drop (i + 1)).take (k - i)).reverse ++ tour.drop (k + 1)

/-- Whether turning the segment between `i` and `k` around shortens the tour. -/
def shortens (pf : Platform) (tour : List Place) (i k : Nat) : Bool :=
  match tour[i]?, tour[i + 1]?, tour[k]? with
  | some a, some b, some c =>
    let before := a.kmTo pf b
    let after := a.kmTo pf c
    let (before, after) := match tour[k + 1]? with
      | some d => (before + c.kmTo pf d, after + b.kmTo pf d)
      -- a segment at the end of the tour has no way out
      | none => (before, after)
    -- the margin keeps rounding from turning a segment to and fro
    after < before + .fin (-1 / 1000000000)
  | _, _, _ => false

/-- The index pairs one round of `_two_opt` goes through. -/
def twoOptPairs (n : Nat) : List (Nat × Nat) :=
  (List.range (n - 2)).flatMap fun i => (List.range' (i + 2) (n - (i + 2))).map (i, ·)

/-- One round of `_two_opt`, with whether it improved anything. -/
def twoOptRound (pf : Platform) (tour : List Place) : Bool × List Place :=
  (twoOptPairs tour.length).foldl (fun (improved, tour) (i, k) =>
    if shortens pf tour i k then (true, reverseSegment tour i k) else (improved, tour))
    (false, tour)

/-- `_two_opt`, in at most `rounds` rounds. -/
def twoOpt (pf : Platform) : (rounds : Nat) → List Place → List Place
  | 0, tour => tour
  | rounds + 1, tour =>
    match twoOptRound pf tour with
    | (true, tour) => twoOpt pf rounds tour
    | (false, tour) => tour

/-- `max_rounds`. -/
def maxRounds : Nat := 20

/-- `_tour`. -/
def tour (pf : Platform) (places : List Place) : List Int :=
  match places with
  | first :: rest =>
    -- two places leave nothing to choose
    if places.length ≤ 2 then places.map (·.placeId)
    else (twoOpt pf maxRounds (first :: nearestTour pf rest.length first rest)).map (·.placeId)
  | [] => []

/-- `_order_places`: day by day. -/
def orderPlaces (pf : Platform) (places : List Place) : List Int :=
  (sortedBy id (places.map (·.day)).dedup).flatMap fun day =>
    tour pf (places.filter fun p => p.day = day)

/-! ### Legs -/

/-- `_SPEED_KMH`. -/
def speedKmh : Mobility → ℚ
  | .walk => 9 / 2
  | .bicycle => 15
  | .scooter => 20
  | .car => 30
  | .transit => 20

/-- `_DETOUR_FACTOR`. -/
def detourFactor : ℚ := 13 / 10

/-- `_walk_minutes`. -/
def walkMinutes (km : PyFloat) (mobility : Mobility) : Except PyExn Int :=
  match km with
  | .fin q => .ok (max 1 (roundHalfEven (q * detourFactor / speedKmh mobility * 60)))
  -- `round` of what is no number raises
  | .nan => .error (.valueError "ValueError")
  | _ => .error .overflowError

/-- The place with this `place_id`. -/
def AgentState.placeById (s : AgentState) (pid : Int) : Option Place :=
  keyedBy (·.placeId) (s.places.getD []) pid

/-- One leg of `_rebuild_legs`: an old one if there is one between the two. -/
def rebuildLeg (pf : Platform) (s : AgentState) (a b : Int) : Except PyExn Leg :=
  let mobility := s.request.mobility.getD .walk
  match keyedBy (fun leg => (leg.fromPlaceId, leg.toPlaceId)) (s.legs.getD []) (a, b) with
  -- the leg the route had between the two is kept as it is
  | some leg => .ok leg
  | none =>
    match s.placeById a, s.placeById b with
    | some pa, some pb => do
      let km := pa.kmTo pf pb
      Leg.build a b mobility km.round2 (← walkMinutes km mobility)
    -- between places that are not there the leg is empty
    | _, _ => Leg.build a b mobility 0 0

/-- `_rebuild_legs`. -/
def rebuildLegs (pf : Platform) (s : AgentState) (order : List Int) : Except PyExn (List Leg) :=
  (pairs order).mapM fun (a, b) => rebuildLeg pf s a b

/-! ### recommend_route -/

/-- The visit order: as given where the user set it, by day and distance
    otherwise. -/
def visitOrderOf (pf : Platform) (req : AgentRequest) (places : List Place) : List Int :=
  -- the user's own order is not touched
  if req.stage = .route ∧ req.optimize = false then places.map (·.placeId)
  else orderPlaces pf places

/-- The legs of an earlier order are dropped before those of the new one are made. -/
def recommendRoute (env : Env) (s : AgentState) : Except PyExn AgentState :=
  if s.failed then .ok s
  else
    match s.places with
    -- `state["places"]`
    | none => .error .keyError
    | some [] => .ok (s.fail "recommend_route has no places" "selection_invalid")
    | some places => do
      let order := visitOrderOf env.platform s.request places
      let legs ← rebuildLegs env.platform { s with legs := some [] } order
      return { s with visitOrder := some order, legs := some legs }

end MapServiceAgent.Native

import MapServiceAgent.Native.CandidateNodes
import MapServiceAgent.Native.Prompts
import MapServiceAgent.Native.SelectedPlaces
import MapServiceAgent.Native.StructuredCall

/-!
# The selection node

`recommend_places`: verify the places to keep, cap the candidates, let the
model pick indices, merge.
-/

namespace MapServiceAgent.Native

/-! ### Capping the candidates -/

/-- `_candidate_limit`. -/
def candidateLimit (env : Env) (req : AgentRequest) : Int :=
  max env.settings.candidatesMaxBase (numDays req * env.settings.candidatesPerDay)

/-- The positions `_cap_candidates` keeps: half of the limit from the indoor
    ones, the rest from outdoors, and indoor ones again where those run out. -/
def capPositions (limit : Nat) (flags : List Bool) : List Nat :=
  let indoor := (flags.zipIdx.filter (·.1)).map (·.2)
  let outdoor := (flags.zipIdx.filter (!·.1)).map (·.2)
  let takeIn := indoor.take (limit / 2)
  let takeOut := outdoor.take (limit - takeIn.length)
  let short := limit - takeIn.length - takeOut.length
  sortedBy id (takeIn ++ (indoor.drop takeIn.length).take short ++ takeOut)

/-- Whether a candidate counts as indoor. -/
def indoorFlag : Json → Except PyExn Bool
  | .obj m => isIndoor m
  | _ => .ok false

/-- `_cap_candidates`. -/
def capCandidates (candidates : List Json) (limit : Int) : Except PyExn (List Json) :=
  if limit ≤ 0 ∨ candidates.length ≤ limit then .ok candidates
  else do
    let flags ← candidates.mapM indoorFlag
    return (capPositions limit.toNat flags).filterMap fun i => candidates[i]?

/-! ### Reviews -/

/-- `l[:n]` for any integer. -/
def pyTake {α : Type} (n : Int) (l : List α) : List α :=
  if 0 ≤ n then l.take n.toNat else l.take (l.length - n.natAbs)

/-- `_snippets_from_response`. -/
def snippetsFromResponse (resp : Json) (keep : Int) : Except PyExn (List String) := do
  let items ← match resp with
    | .obj m => ((dictGet m "reviews").orElse (.arr [])).iter
    | _ => .ok []
  return pyTake keep (items.filterMap fun
    | .obj r =>
      match dictGet r "description" with
      | .str s => if s = "" then none else some s
      | _ => none
    | _ => none)

/-- `_REVIEW_QUERY_MAX`. -/
def reviewQueryMax : Nat := 60

/-- `_review_query`: the city first, since names repeat across regions. -/
def reviewQuery (pf : Platform) (req : AgentRequest) (name : Json) : String :=
  takeChars reviewQueryMax (strip (req.city ++ " " ++ pyStr pf name))

/-- The loop of `_fetch_reviews_for`: at most `limit` more calls, `used` calls
    made by the job so far. -/
def fetchReviewsLoop (env : Env) (req : AgentRequest) (limit : Nat) (used : Nat)
    (reviews : List (PyKey × List String)) :
    List Json → Except PyExn (List (PyKey × List String) × Nat)
  | [] => .ok (reviews, used)
  | c :: cs =>
    match limit with
    -- the budget of the job is spent
    | 0 => .ok (reviews, used)
    | limit + 1 =>
      match c with
      | .obj m =>
        let cid := dictGet m "content_id"
        let name := dictGet m "name"
        -- a candidate that cannot be asked about costs no call
        if !cid.truthy || !name.truthy then fetchReviewsLoop env req (limit + 1) used reviews cs
        else
          let query := reviewQuery env.platform req name
          match env.hub.fetchReviews used query env.settings.reviewsDisplay with
          | .error e =>
            -- a lookup that fails costs its call and nothing else
            if e.isException then fetchReviewsLoop env req limit (used + 1) reviews cs
            else .error e
          | .ok resp => do
            -- the answer is read outside the `try`: what cannot be read raises
            let snippets ← snippetsFromResponse resp env.settings.reviewsDisplay
            if snippets = [] then fetchReviewsLoop env req limit (used + 1) reviews cs
            else
              let k ← cid.key
              fetchReviewsLoop env req limit (used + 1) (dictSet reviews k snippets) cs
      | _ => fetchReviewsLoop env req (limit + 1) used reviews cs

/-- `_reviews_budget_left`. -/
def reviewsBudgetLeft (env : Env) (s : AgentState) : Int :=
  max 0 (env.settings.reviewsFetchCapPerJob - s.reviewsFetchUsed.getD 0)

/-- `_fetch_reviews_for`, with the number of calls the job has then made. -/
def fetchReviewsFor (env : Env) (candidates : List Json) (s : AgentState) :
    Except PyExn (List (PyKey × List String) × Nat) :=
  fetchReviewsLoop env s.request (min env.settings.reviewsMaxPlaces (reviewsBudgetLeft env s)).toNat
    (s.reviewsFetchUsed.getD 0) [] candidates

/-- The enrichment of `_select_places`: the reviews of the first candidates. -/
def enrichWithReviews (env : Env) (candidates : List Json) (s : AgentState) :
    Except PyExn (List (PyKey × List String) × AgentState) :=
  if env.settings.reviewsEnrichEnabled && s.grounded.getD false then do
    let limit := min env.settings.reviewsMaxPlaces (reviewsBudgetLeft env s)
    let before := s.reviewsFetchUsed.getD 0
    let (reviews, used) ← fetchReviewsLoop env s.request limit.toNat before [] candidates
    let s := if used = before then s else { s with reviewsFetchUsed := some used }
    return (reviews, if reviews = [] then s else { s with reviews := some reviews })
  else .ok ([], s)

/-! ### _select_places -/

/-- The selections that count: days of the trip, indices of the list, each
    index once. -/
def chosenSelections (days : Int) (count : Nat) (seen : List Int) :
    List PlaceSelection → List PlaceSelection
  | [] => []
  | sel :: rest =>
    -- what the model made up is skipped, as is a second mention
    if sel.day ≤ days ∧ sel.index < count ∧ sel.index ∉ seen then
      sel :: chosenSelections days count (sel.index :: seen) rest
    else chosenSelections days count seen rest

/-- The places of the chosen candidates, numbered from `placeId`; a candidate
    that makes no place is skipped. -/
def placesFromSelections (pf : Platform) (candidates : List Json) (placeId : Nat) :
    List PlaceSelection → Except PyExn (List Place)
  | [] => .ok []
  | sel :: rest =>
    match candidates[sel.index.toNat]? with
    | none => .error (.other "IndexError")
    | some c =>
      match placeFromCandidate pf placeId c sel.recommendedVisitTime sel.day with
      | .ok p => do return p :: (← placesFromSelections pf candidates (placeId + 1) rest)
      | .error e =>
        if skipsCandidate e then placesFromSelections pf candidates placeId rest else .error e

/-- What `_select_places` makes of the model's answer. -/
def takeSelection (env : Env) (candidates : List Json) (selections : List PlaceSelection)
    (s : AgentState) : Except PyExn AgentState := do
  let chosen := chosenSelections (numDays s.request) candidates.length [] selections
  let places ← placesFromSelections env.platform candidates 0 (sortedBy (·.day) chosen)
  if places = [] then
    return s.fail "insufficient verified places: selection returned empty" "selection_invalid"
  else return { s with places := some places }

/-- The reviews come first, so their calls stay counted when the selection fails. -/
def selectPlaces (env : Env) (candidates : List Json) : JobM Unit := fun j =>
  match enrichWithReviews env candidates j.state with
  | .error e => (.error e, j)
  | .ok (reviews, s) =>
    match buildSelectionPrompt env.platform s.request (s.weather.getD (.obj [])) candidates reviews
      s.plan with
    -- building the prompt is outside the `try`
    | .error e => (.error e, { j with state := s })
    | .ok (system, prompt) =>
      match callStructured env.gemini.selection .placesSelection
        env.settings.geminiMaxCallsPerRequest system prompt { j with state := s } with
      | (.error e, j) =>
        if e.isException then (.ok (), { j with state := j.state.update (exceptionFailure e) })
        else (.error e, j)
      | (.ok envelope, j) => JobM.ofState (takeSelection env candidates envelope.selections) j

/-! ### recommend_places -/

/-- `_pinned_places`: what a second search is to keep. -/
def pinnedPlaces (req : AgentRequest) : Except PyExn (List Place) :=
  if req.stage = .mode1 then placesFromSelected req.given else .ok []

/-- The pinned places, verified. -/
def verifiedPins (env : Env) (s : AgentState) : Except PyExn (List Place × AgentState) := do
  let pinned ← pinnedPlaces s.request
  if pinned = [] then return ([], s) else verifySelectedPlaces env s s.request.given

/-- How many pinned places fall on a day. -/
def pinnedOn (pinned : List Place) (day : Int) : Nat := pinned.countP fun p => p.day = day

/-- The plan with the pinned places taken off its targets. -/
def Plan.without (plan : Plan) (pinned : List Place) : Plan :=
  { plan with days := plan.days.map fun d =>
      { d with targetStops := max 0 (d.targetStops - pinnedOn pinned d.day) } }

/-- `_remaining_targets`: whether the plan, so reduced, still asks for places. -/
def remainingTargets (s : AgentState) (pinned : List Place) : Bool × AgentState :=
  match s.plan with
  -- without a plan nothing says the pins are enough
  | none => (true, s)
  | some plan =>
    if plan.days = [] then (true, s)
    else
      let reduced := plan.without pinned
      (decide (0 < (reduced.days.map (·.targetStops)).sum), { s with plan := some reduced })

/-- A nonempty `content_id`. -/
def Place.sourceId (p : Place) : Option String := p.contentId.filter (· ≠ "")

/-- `model_copy(update={"place_id": i})` along a list. -/
def renumber (places : List Place) : List Place := places.zipIdx.map fun (p, i) => p.withId i

/-- `_merge_pinned`. -/
def mergePinned (pinned fresh : List Place) : List Place :=
  let pinnedIds := pinned.filterMap Place.sourceId
  -- only the fresh places are looked through for a second mention
  renumber (sortedBy (·.day) (pinned ++ fresh.filter fun p => p.sourceId.all (· ∉ pinnedIds)))

/-- Whether some day of the trip has no place, or all of them less than two. -/
def lacksPlaces (req : AgentRequest) (places : List Place) : Bool :=
  decide (places.length < 2) ||
    (List.range (numDays req).toNat).any fun d => !places.any fun p => p.day = d + 1

/-- The end of `recommend_places`: merge and check coverage. -/
def finishPlaces (pinned : List Place) (s : AgentState) : AgentState :=
  if s.failed then s
  else
    let s := if pinned = [] then s
      else { s with places := some (mergePinned pinned (s.places.getD [])) }
    if lacksPlaces s.request (s.places.getD []) then
      s.fail "insufficient verified places for the requested days" "selection_invalid"
    else s

/-- The selection proper, for the places not pinned. -/
def selectFresh (env : Env) : JobM Unit := fun j =>
  let s := j.state
  match s.candidates.getD [] with
  | [] =>
    let s := s.fail "insufficient verified places: no search candidates" "no_matching_places"
    (.ok (), { j with state := s })
  | candidates =>
    match capCandidates candidates (candidateLimit env s.request) with
    | .error e => (.error e, j)
    | .ok capped =>
      selectPlaces env capped
        { j with state := { s with candidates := some capped, selectionPath := some "select" } }

/-- The state once the pins are verified and counted off, and whether there is
    anything left to select. -/
def pinPlaces (s : AgentState) (pinned : List Place) : Bool × AgentState :=
  let s := { s with pinnedContentIds := some (pinned.filterMap Place.sourceId) }
  if pinned = [] then (true, s) else remainingTargets s pinned

/-- The pinned places are verified first; a selection that would add nothing to them is
    not made. -/
def recommendPlaces (env : Env) : JobM Unit := fun j =>
  if j.state.failed then (.ok (), j)
  else
    match verifiedPins env j.state with
    | .error e => (.error e, j)
    | .ok (pinned, s) =>
      if s.failed then (.ok (), { j with state := s })
      else
        match pinPlaces s pinned with
        -- the pins fill the plan: nothing is left to choose
        | (false, s) => (.ok (), { j with state := { s with places := some pinned } })
        -- coverage is checked for the pins and the fresh places together
        | (true, s) =>
          match selectFresh env { j with state := s } with
          | (.error e, j) => (.error e, j)
          | (.ok (), j) => (.ok (), { j with state := finishPlaces pinned j.state })

end MapServiceAgent.Native

import MapServiceAgent.Native.InputNodes

/-!
# Places from candidates, and the check of places the user picked

A candidate becomes a `Place` only with a source identifier and inside the
country. What the user picked is looked up again and replaced by the source's
own values.
-/

namespace MapServiceAgent.Native

/-! ### _place_from_candidate -/

/-- What `Optional[str]` reads. -/
def optionalStr : Json → Except PyExn (Option String)
  | .null => .ok none
  | .str s => .ok (some s)
  | _ => .error .validationError

/-- What `Optional[float]` or `Optional[int]` reads by the coercion `f`. -/
def optionalBy {α : Type} (f : Json → Option α) : Json → Except PyExn (Option α)
  | .null => .ok none
  | v =>
    match f v with
    | some x => .ok (some x)
    | none => .error .validationError

/-- What `str` reads. -/
def requiredStr : Json → Except PyExn String
  | .str s => .ok s
  | _ => .error .validationError

/-- `(v or "")[:n]`. -/
def cutText (n : Nat) (v : Json) : Except PyExn Json :=
  match v.orElse (.str "") with
  | .str s => .ok (.str (takeChars n s))
  | .arr l => .ok (.arr (l.take n))
  -- slicing a dictionary looks the slice up
  | .obj _ => .error .keyError
  | _ => .error .typeError

/-- The sources that count as verified. -/
def verifiedSources : List String := ["kakao", "durunubi"]

/-- A usable source identifier: not blank, not a stub. -/
def isSourceId (cid : String) : Bool := strip cid != "" && !hasSubstring "stub" (lower cid)

/-- The fields `_place_from_candidate` hands to `Place`, from a candidate whose
    identifier and source passed. -/
def candidateFields (pf : Platform) (placeId : Int) (m : List (String × Json)) (cid src : String)
    (visitTime : String) (day : Int) : Except PyExn PlaceFields := do
  -- the arguments are evaluated before the schema looks at any of them
  let name ← cutText 80 (dictGet m "name")
  let address ← cutText 200 (dictGet m "address")
  let lat ← pyFloat pf (← dictItem m "lat")
  let lng ← pyFloat pf (← dictItem m "lng")
  return {
    placeId := placeId
    day := day
    name := ← requiredStr name
    address := ← requiredStr address
    lat := lat
    lng := lng
    recommendedVisitTime := neutralizeTags visitTime
    contentId := some cid
    source := some src
    category := ← optionalStr (neutralizeTagsJson (dictGet m "category"))
    categoryGroupCode := ← optionalStr (dictGet m "category_group_code")
    phone := ← optionalStr (dictGet m "phone")
    placeUrl := ← optionalStr (dictGet m "place_url")
    crsDstncKm := ← optionalBy pf.coerceFloat (dictGet m "crs_dstnc_km")
    crsTotalMin := ← optionalBy pf.coerceInt (dictGet m "crs_total_min")
    crsLevel := ← optionalBy pf.coerceInt (dictGet m "crs_level")
    brdDiv := ← optionalStr (dictGet m "brd_div")
    gpxUrl := ← optionalStr (dictGet m "gpx_url")
    routeIdx := ← optionalStr (dictGet m "route_idx")
    grounded := true }

/-- A candidate without a source that can be checked is refused, whatever else it has. -/
def placeFromCandidate (pf : Platform) (placeId : Int) (c : Json) (visitTime : String) (day : Int) :
    Except PyExn Place :=
  match c with
  | .obj m =>
    match dictGet m "content_id" with
    | .str cid =>
      if strip cid = "" then .error (.valueError "ValueError")
      else do
        -- looking an unhashable value up in a set raises
        let _ ← (dictGet m "source").key
        match dictGet m "source" with
        | .str src =>
          if src ∈ verifiedSources ∧ isSourceId cid then
            Place.build (← candidateFields pf placeId m cid src visitTime day)
          else .error (.valueError "ValueError")
        | _ => .error (.valueError "ValueError")
    | _ => .error (.valueError "ValueError")
  | _ => .error .attributeError

/-- The exceptions for which a candidate is skipped: `ValidationError`,
    `ValueError`, `TypeError`, `KeyError`, `AttributeError`. -/
def skipsCandidate : PyExn → Bool
  | .typeError | .keyError | .attributeError => true
  | e => e.isValueError

/-! ### _verify_selected_places -/

/-- Whether a verified place is the one the user picked. -/
def matchesGiven (pf : Platform) (given : SelectedPlace) (place : Place) : Bool :=
  match given.contentId with
  | some cid =>
    -- an identifier decides alone, whatever the names say
    if cid ≠ "" then place.contentId == some cid else matchesLocation
  | none => matchesLocation
where
  /-- The same name, within 100 m. -/
  matchesLocation : Bool :=
    strip given.name == strip place.name &&
      (pf.straightKm given.lat given.lng place.lat place.lng).leb (.fin (1 / 10))

/-- The first candidate that is the place the user picked. -/
def findMatch (pf : Platform) (placeId : Int) (given : SelectedPlace) :
    List Json → Except PyExn (Option Place)
  | [] => .ok none
  | c :: cs =>
    match placeFromCandidate pf placeId c "" given.day with
    | .ok place =>
      if matchesGiven pf given place then .ok (some place) else findMatch pf placeId given cs
    -- a candidate that is no place is passed over
    | .error e => if skipsCandidate e then findMatch pf placeId given cs else .error e

/-- The candidates a search response lists: `response.get("places") or []`. -/
def responsePlaces (response : Json) : Except PyExn (List Json) := do
  ((← response.get "places").orElse (.arr [])).iter

/-- The search that looks up the `i`-th picked place. -/
def searchSelected (env : Env) (req : AgentRequest) (i : Nat) (given : SelectedPlace) :
    Except PyExn Json :=
  env.hub.searchPlaces (.selected i) req.province req.city none (some (takeChars 40 given.name))

/-- The loop of `_verify_selected_places` from the `i`-th place on; `none` when
    some place matches no candidate. -/
def verifyFrom (env : Env) (req : AgentRequest) :
    (i : Nat) → List SelectedPlace → Except PyExn (Option (List Place))
  | _, [] => .ok (some [])
  | i, given :: rest => do
    let response ← searchSelected env req i given
    match ← findMatch env.platform i given (← responsePlaces response) with
    -- one place without a match is enough
    | none => return none
    | some place =>
      match ← verifyFrom env req (i + 1) rest with
      | none => return none
      | some places => return some (place :: places)

/-- The exceptions that fail the job instead of the node. -/
def failsVerification (e : PyExn) : Bool :=
  e.isHttpError || e.isValueError || e.isRuntimeError ||
    match e with
    | .typeError | .attributeError => true
    | _ => false

/-- All picked places verified, or the job fails and none of them is kept. -/
def verifySelectedPlaces (env : Env) (s : AgentState) (selected : List SelectedPlace) :
    Except PyExn (List Place × AgentState) :=
  match verifyFrom env s.request 0 selected with
  | .ok (some places) => .ok (places, s)
  | .ok none =>
    .ok ([], s.fail "selected place could not be verified with its source" "invalid_request")
  | .error e =>
    -- a search that fails is told as what it is, not as a missing place
    if failsVerification e then .ok ([], s.update (exceptionFailure e)) else .error e

/-! ### load_given_places -/

/-- `_places_from_selected`: the picked places as they are, to count them. -/
def placesFromSelected (selected : List SelectedPlace) : Except PyExn (List Place) :=
  selected.zipIdx.mapM fun (p, i) =>
    Place.build {
      placeId := i, day := p.day, name := p.name, address := p.address, lat := p.lat, lng := p.lng
      recommendedVisitTime := "", contentId := p.contentId, source := none
      category := p.category, categoryGroupCode := none, phone := none, placeUrl := none
      crsDstncKm := none, crsTotalMin := none, crsLevel := none, brdDiv := none, gpxUrl := none
      routeIdx := none, grounded := false }

/-- The places of the request, which a route must have. -/
def loadGivenPlaces (env : Env) (s : AgentState) : Except PyExn AgentState :=
  if s.failed then .ok s
  else
    match s.request.given with
    -- the check of `parse_input` once more
    | [] => .ok (s.fail "stage=route requires places" "invalid_request")
    | selected => do
      let (places, s) ← verifySelectedPlaces env { s with selectionPath := some "route" } selected
      return { s with places := some places, grounded := some !s.failed }

end MapServiceAgent.Native

import MapServiceAgent.Native.InputNodes

/-!
# Candidate nodes

`search_places` asks the hub once for each theme and merges the answers,
`rules_filter` lets the hub drop what is out of reach, `score_and_rank` sorts
the rest by the hub's scores.
-/

namespace MapServiceAgent.Native

/-! ### Theme keywords -/

/-- `_THEME_KEYWORDS`. -/
def themeKeywordTable : List (String × String) :=
  [("food", "맛집"), ("cafe", "카페"), ("photo", "명소"), ("nature", "공원"),
   ("history", "문화재"), ("activity", "체험"), ("shopping", "쇼핑"), ("night", "야경")]

/-- `_THEME_QUERY_MAX`. -/
def themeQueryMax : Nat := 8

/-- `_theme_keywords`: the searches to run, never none. -/
def themeKeywords (themes : Option (List String)) : List (Option String) :=
  let seen := ((themes.getD []).take themeQueryMax).foldl (fun seen t =>
    if strip t = "" then seen
    else
      let kw := some ((themeKeywordTable.lookup (lower (strip t))).getD (strip t))
      if kw ∈ seen then seen else seen ++ [kw]) []
  if seen = [] then [none] else seen

/-! ### search_places -/

/-- The loop of `_merge_place_results` over all listed candidates: dictionaries
    only, and each `content_id` once. -/
def mergeUnseen (seen : List PyKey) : List Json → Except PyExn (List Json)
  | [] => .ok []
  | c :: cs =>
    match c with
    | .obj m =>
      match dictGet m "content_id" with
      | .null => do return c :: (← mergeUnseen seen cs)
      | cid => do
        let k ← cid.key
        if k ∈ seen then mergeUnseen seen cs
        else return c :: (← mergeUnseen (k :: seen) cs)
    | _ => mergeUnseen seen cs

/-- The list under `places`, empty when there is none. -/
def listedPlaces : Json → List Json
  | .obj m =>
    match dictGet m "places" with
    | .arr l => l
    | _ => []
  | _ => []

/-- `_merge_place_results`. -/
def mergePlaceResults (results : List Json) : Except PyExn (List Json) :=
  mergeUnseen [] (results.flatMap listedPlaces)

/-- `isinstance(result, dict) and isinstance(result.get("places"), list)`. -/
def isPlacesResponse : Json → Bool
  | .obj m =>
    match dictGet m "places" with
    | .arr _ => true
    | _ => false
  | _ => false

/-- `c.get("content_id") in exclude`. A merged candidate is a dictionary. -/
def isExcluded (exclude : List String) : Json → Bool
  | .obj m => exclude.any fun e => (dictGet m "content_id").eqStr e
  | _ => false

/-- `asyncio.gather`: all results, or the exception that came first. -/
def gather {α : Type} (firstFailure : Nat) (results : List (Except PyExn α)) :
    Except PyExn (List α) :=
  let failures := results.filterMap fun
    | .error e => some e
    | .ok _ => none
  match failures[firstFailure % failures.length]? with
  | some e => .error e
  | none => .ok (results.filterMap Except.toOption)

/-- The searches of `search_places`, one for each keyword. -/
def searchThemes (env : Env) (req : AgentRequest) : List (Except PyExn Json) :=
  (themeKeywords req.theme).zipIdx.map fun (kw, i) =>
    env.hub.searchPlaces (.theme i) req.province req.city (req.mobility.map Mobility.value) kw

/-- The candidates `search_places` makes of the hub's responses. -/
def mergedCandidates (req : AgentRequest) (results : List Json) : Except PyExn (List Json) := do
  let candidates ← mergePlaceResults results
  return candidates.filter fun c => !isExcluded (req.exclude.getD []) c

/-- One search for each theme at once; a search that fails leaves no candidates and a
    failed job. -/
def searchPlaces (env : Env) (s : AgentState) : Except PyExn AgentState :=
  if s.failed then .ok s
  else
    match gather env.hub.firstFailure (searchThemes env s.request) with
    | .error e =>
      if e.isHttpError || e.isValueError then
        let f := exceptionFailure e
        -- what has no code of its own counts as the hub being away
        let f := if f.code = "generation_failed" then failure "upstream_unavailable" else f
        .ok { s.update f with candidates := some [], grounded := some false }
      else .error e
    | .ok results =>
      if results.all isPlacesResponse then do
        let candidates ← mergedCandidates s.request results
        -- nothing found is no failure here: the selection fails on it
        if candidates = [] then return { s with candidates := some [], grounded := some false }
        else return { s with candidates := some candidates, grounded := some true }
      else
        -- an answer that is not what the hub sends
        .ok { s.update (failure "upstream_unavailable") with
          candidates := some [], grounded := some false }

/-! ### rules_filter -/

/-- `lat` and `lng` of the candidates that have both. -/
def candidateCoords (candidates : List Json) : List (Json × Json) :=
  candidates.filterMap fun
    | .obj m =>
      match dictGet m "lat", dictGet m "lng" with
      | .null, _ => none
      | _, .null => none
      | lat, lng => some (lat, lng)
    | _ => none

/-- `resp.get("filtered") or []`, dictionaries only. -/
def filteredCandidates : Json → Except PyExn (List Json)
  | .obj m => do return (← ((dictGet m "filtered").orElse (.arr [])).iter).filter Json.isDict
  | _ => .ok []

/-- What the hub is asked to filter: the mean of the coordinates, the mobility
    and the candidates; `none` where the node passes the state on. -/
def filterQuery (s : AgentState) :
    Except PyExn (Option (PyFloat × PyFloat × String × List Json)) :=
  let candidates := s.candidates.getD []
  -- unverified candidates are not worth a request
  if candidates = [] ∨ s.grounded.getD false = false then .ok none
  else
    match s.request.mobility with
    | none => .ok none
    | some mobility =>
      let coords := candidateCoords candidates
      if coords = [] then .ok none
      else do
        let lat ← pyDiv (← pySum (coords.map (·.1))) coords.length
        let lng ← pyDiv (← pySum (coords.map (·.2))) coords.length
        return some (lat, lng, mobility.value, candidates)

/-- The exceptions `rules_filter` and `score_and_rank` degrade on. -/
def degradesRules (e : PyExn) : Bool :=
  e.isHttpError || e.isValueError ||
    match e with
    | .keyError => true
    | _ => false

/-- The hub keeps the candidates within reach; without its answer all of them stay. -/
def rulesFilter (env : Env) (s : AgentState) : Except PyExn AgentState :=
  if s.failed || !env.settings.rulesEnabled then .ok s
  else do
    match ← filterQuery s with
    | none => return s
    | some (lat, lng, mobility, candidates) =>
      match env.hub.filterMobilityRadius lat lng mobility candidates with
      | .error e => if degradesRules e then return s else throw e
      | .ok resp =>
        let filtered ← filteredCandidates resp
        -- everything out of reach is an empty search, not a failed filter
        if filtered = [] then return { s with candidates := some [], grounded := some false }
        else return { s with candidates := some filtered }

/-! ### Affinity and segment gain -/

/-- `_THEME_AFFINITY`: category group codes and pieces of the category text. -/
def themeAffinity : List (String × List String × List String) :=
  [("food", ["FD6"], ["음식점", "한식", "일식", "중식", "양식"]),
   ("cafe", ["CE7"], ["카페", "디저트", "베이커리", "제과"]),
   ("photo", ["AT4"], ["명소", "전망", "테마파크"]),
   ("nature", ["AT4"], ["공원", "해수욕장", "계곡", "수목원", "등산", "산책로", "걷기길"]),
   ("history", ["CT1"], ["문화유적", "고궁", "궁궐", "박물관", "미술관", "사찰", "유적"]),
   ("activity", ["AT4"], ["레저", "체험", "스포츠", "자전거길"]),
   ("shopping", ["MT1"], ["쇼핑", "시장", "백화점", "마트", "아울렛"]),
   ("night", ["AT4"], ["야경", "전망"])]

/-- `_AFFINITY_MAX`. -/
def affinityMax : ℚ := 1 / 10

/-- `_AFFINITY_DECAY`. -/
def affinityDecay : ℚ := 7 / 10

/-- `any(n in text for n in needles)`. -/
def anyIn (text : Json) : List String → Except PyExn Bool
  | [] => .ok false
  | n :: ns => do if ← text.hasStr n then return true else anyIn text ns

/-- The loop of `_affinity` from the `i`-th theme on. -/
def affinityFrom (code text : Json) (best : ℚ) : (i : Nat) → List String → Except PyExn ℚ
  | _, [] => .ok best
  | i, raw :: rest =>
    match themeAffinity.lookup (lower (strip raw)) with
    | none => affinityFrom code text best (i + 1) rest
    | some (codes, needles) => do
      let hit := max best (affinityMax * affinityDecay ^ i)
      if codes.any fun s => code.eqStr s then affinityFrom code text hit (i + 1) rest
      else if ← anyIn text needles then affinityFrom code text hit (i + 1) rest
      else affinityFrom code text best (i + 1) rest

/-- `_affinity`: the best theme counts, a later one less. -/
def affinity (m : List (String × Json)) (themes : List String) : Except PyExn ℚ :=
  affinityFrom (dictGet m "category_group_code") ((dictGet m "category").orElse (.str "")) 0 0
    (themes.take themeQueryMax)

/-- The rate a segment's statistics give, if it is one. -/
def segmentRate (pf : Platform) (entry : Json) : Option ℚ :=
  match entry with
  | .obj e =>
    match dictGet e "rate" with
    -- a boolean is a number of the language, not of the statistics
    | .bool _ => none
    | raw =>
      match pyFloat pf raw with
      | .ok (.fin rate) => if 0 ≤ rate ∧ rate ≤ 1 then some rate else none
      | _ => none
  | _ => none

/-- `_segment_gain`. -/
def segmentGain (pf : Platform) (m : List (String × Json)) (segment : Json) : Except PyExn ℚ :=
  let cid := dictGet m "content_id"
  match segment with
  | .obj seg =>
    if !cid.truthy then .ok 0
    else
      match dictGet seg "places" with
      | .obj places =>
        match cid.key with
        | .error e => .error e
        | .ok (.str cid) => .ok (affinityMax * (segmentRate pf (dictGet places cid)).getD 0)
        -- the keys of the file are texts, so no other identifier is among them
        | .ok _ => .ok 0
      | _ => .ok 0
  | _ => .ok 0

/-- `_segment_for(None, None)`. -/
def segmentFor (env : Env) : Except PyExn Json :=
  ((dictGet env.segmentStats "segments").orElse (.obj [])).get "unknown|unknown"

/-! ### score_and_rank -/

/-- `_INDOOR_CATEGORY_GROUPS`. -/
def indoorCategoryGroups : List String := ["CE7", "FD6", "CT1", "MT1", "AD5"]

/-- `c.get("category_group_code") in _INDOOR_CATEGORY_GROUPS`. -/
def isIndoor (m : List (String × Json)) : Except PyExn Bool := do
  let k ← (dictGet m "category_group_code").key
  return indoorCategoryGroups.any fun g => k = .str g

/-- The score of rank `i` before any bonus. -/
def rankDecay (i : Nat) : ℚ := 1 - i / 100

/-- The entry of `pois` for the candidate of rank `i`, if it has an identifier. -/
def poiOf (env : Env) (themes : List String) (segment : Json) (c : Json) (i : Nat) :
    Except PyExn (Option Json) :=
  match c with
  | .obj m => do
    let cid := dictGet m "content_id"
    -- the hub could not name its score
    if !cid.truthy then return none
    else
      let indoor ← isIndoor m
      let liking ← affinity m themes
      let gain ← segmentGain env.platform m segment
      return some (.obj [("content_id", cid), ("indoor_flag", .bool indoor),
        ("base_score", .float (.fin (rankDecay i + max liking gain)))])
  | _ => .ok none

/-- `pois`: without personalization neither themes nor segment count. -/
def poisOf (env : Env) (req : AgentRequest) (candidates : List Json) :
    Except PyExn (List Json) :=
  if env.settings.personalizationEnabled then do
    let segment ← segmentFor env
    let pois ← candidates.zipIdx.mapM fun (c, i) => poiOf env (req.theme.getD []) segment c i
    return pois.filterMap id
  else do
    let pois ← candidates.zipIdx.mapM fun (c, i) => poiOf env [] .null c i
    return pois.filterMap id

/-- The larger of two numbers, the first when neither is. -/
def maxNumber (a b : Json) : Json :=
  match a.num?, b.num? with
  | some x, some y => if x < y then b else a
  | _, _ => a

/-- `max(numbers, default=None)`. -/
def maxNumbers : List Json → Option Json
  | [] => none
  | v :: vs => some (vs.foldl maxNumber v)

/-- A number between 0 and 100 that is no boolean. -/
def isPercent (v : Json) : Bool :=
  !v.isBool && v.num?.any fun x => decide (0 ≤ x) && decide (x ≤ 100)

/-- `day_pop_max`. -/
def dayPopMax (s : AgentState) : Except PyExn (Option Json) :=
  match (s.plan.map (·.days)).getD [] with
  | [] =>
    -- without a plan the hub's days are read as they came
    match s.weather with
    | some (.obj m) => do
      let daily ← ((dictGet m "daily").orElse (.arr [])).iter
      return maxNumbers (daily.filterMap fun
        | .obj d => if isPercent (dictGet d "precipitation_prob")
          then some (dictGet d "precipitation_prob") else none
        | _ => none)
    | _ => .ok none
  | days => .ok (maxNumbers (days.filterMap fun d =>
      match d.precipitationProb with
      | some pop => if isPercent (.int pop) then some (.int pop) else none
      | none => none))

/-- `resp.get("scored") or []`. -/
def scoredEntries : Json → Except PyExn (List Json)
  | .obj m => ((dictGet m "scored").orElse (.arr [])).iter
  | _ => .ok []

/-- The `scores` dictionary of the hub's entries: its numbers, as they came. -/
def scoresOf (entries : List Json) : Except PyExn (List (PyKey × Json)) :=
  entries.foldlM (fun scores entry =>
    match entry with
    | .obj m =>
      match dictGet m "content_id", (dictGet m "score").num? with
      -- an entry without an identifier scores nothing
      | .null, _ => .ok scores
      | cid, some _ => do return dictSet scores (← cid.key) (dictGet m "score")
      | _, none => .ok scores
    | _ => .ok scores) []

/-- The sort key of the candidate of rank `i`. -/
def rankKey (scores : List (PyKey × Json)) (c : Json) (i : Nat) : Except PyExn PyFloat := do
  let k ← match c with
    | .obj m => (dictGet m "content_id").key
    | _ => .ok .null
  return -(((scores.lookup k).bind Json.num?).getD (.fin (rankDecay i)))

/-- The candidates by falling score. A score that is `nan` leaves the order of
    the source's sort unspecified; it is a rearrangement all the same. -/
def rankBy (scores : List (PyKey × Json)) (candidates : List Json) :
    Except PyExn (List Json) := do
  let keyed ← candidates.zipIdx.mapM fun (c, i) => do return (← rankKey scores c i, c)
  return (sortedBy (·.1) keyed).map (·.2)

/-- The hub scores the candidates and the sort follows; without its answer the order
    stays. -/
def scoreAndRank (env : Env) (s : AgentState) : Except PyExn AgentState :=
  let candidates := s.candidates.getD []
  if s.failed || !env.settings.rulesEnabled then .ok s
  else if candidates = [] ∨ s.grounded.getD false = false then .ok s
  else do
    let popMax ← dayPopMax s
    let pois ← poisOf env s.request candidates
    if pois = [] then return s
    else
      match env.hub.scoreIndoorBonus pois popMax with
      | .error e => if degradesRules e then return s else throw e
      | .ok resp =>
        -- entries that cannot be read raise past the handler
        let scores ← scoresOf (← scoredEntries resp)
        if scores = [] then return s
        else return { s with scores := some scores, candidates := some (← rankBy scores candidates) }

end MapServiceAgent.Native

import MapServiceAgent.Native.LocationSeal
import MapServiceAgent.Native.Schemas

/-!
# The gate of `/v1/recommend`

With a wire key set, the places of a request come out of its envelope only, and
the request is validated again with them in it.
-/

namespace MapServiceAgent.Native

/-! ### Validating a place -/

/-- What output fields refuse are the tag characters and the controls. -/
theorem isForbidden_eq (c : Char) : isForbidden c = (isTagChar c || isControl c) := by
  simp only [isForbidden, isTagChar, isControl, Bool.or_assoc]

/-- Where brackets are replaced and control characters dropped, none is left. -/
theorem cleanText_neutralizeTags (s : String) : cleanText (neutralizeTags s) = true := by
  rw [cleanText, neutralizeTags, String.toList_ofList, Bool.not_eq_true', List.any_eq_false]
  intro c hc
  obtain ⟨d, hd, rfl⟩ := List.mem_map.mp hc
  rw [List.mem_filter, Bool.not_eq_true'] at hd
  split
  · decide
  · rename_i htag
    rw [isForbidden_eq, hd.2, Bool.or_false]
    exact htag

/-- A text with fewer characters is no less clean. -/
theorem cleanText_of_subset {s t : String} (h : s.toList ⊆ t.toList) (ht : cleanText t = true) :
    cleanText s = true := by
  rw [cleanText, Bool.not_eq_true', List.any_eq_false] at ht ⊢
  exact fun c hc => ht c (h hc)

/-- A category the request sends back passes the checks of the schema. -/
theorem tidyCategory_valid (s : String) :
    (tidyCategory s).all (fun s => lengthIn 1 categoryMax s && cleanText s) = true := by
  unfold tidyCategory
  dsimp only
  split
  · rfl
  · rename_i hne
    have hlength : (takeChars categoryMax (strip (neutralizeTags s))).toList.length ≤ categoryMax := by
      rw [takeChars, String.toList_ofList]
      exact List.length_take_le _ _
    have hpos : 1 ≤ (takeChars categoryMax (strip (neutralizeTags s))).toList.length :=
      List.length_pos_of_ne_nil fun hnil => hne (String.toList_eq_nil_iff.mp hnil)
    have hclean : cleanText (takeChars categoryMax (strip (neutralizeTags s))) = true := by
      -- cutting and stripping only take characters away
      apply cleanText_of_subset _ (cleanText_neutralizeTags s)
      rw [takeChars, String.toList_ofList, strip, String.toList_ofList]
      exact fun c hc => mem_of_mem_stripChars (List.mem_of_mem_take hc)
    rw [Option.all_some, hclean, Bool.and_true, lengthIn, Bool.and_eq_true, decide_eq_true_eq,
      decide_eq_true_eq]
    exact ⟨hpos, hlength⟩

/-- An optional text: absent, `None` or a string. -/
def readOptional (v : Json) : Option (Option String) :=
  match v with
  | .null => some none
  | .str s => some (some s)
  | _ => none

/-- `_tidy_category` and the type check after it. -/
def readCategory (v : Json) : Option (Option String) :=
  match v with
  | .str s => some (tidyCategory s)
  | .null => some none
  | _ => none

/-- A category that is read is within its bounds, so no later check refuses it. -/
theorem readCategory_valid {v : Json} {category : Option String} (h : readCategory v = some category) :
    category.all (fun s => lengthIn 1 categoryMax s && cleanText s) = true := by
  cases v with
  | str s =>
    rw [← Option.some.inj h]
    exact tidyCategory_valid s
  | null =>
    rw [← Option.some.inj h]
    rfl
  | _ => cases h

/-- A day that is missing or `None` reads as the first. -/
def readDay (pf : Platform) (v : Json) : Option Int :=
  match v with
  | .null => some 1
  | v => pf.coerceInt v

/-- What the fields of a picked place are read as, before their bounds are
    checked. -/
structure SelectedFields where
  name : String
  address : String
  lat : PyFloat
  lng : PyFloat
  day : Int
  contentId : Option String
  category : Option String
  category_valid : category.all (fun s => lengthIn 1 categoryMax s && cleanText s) = true

/-- The fields of a picked place, if each has its type. -/
def readSelected (pf : Platform) (m : List (String × Json)) : Option SelectedFields := do
  let name ← match dictGet m "name" with
    | .str name => some name
    | _ => none
  -- an address that is missing or `None` reads as empty
  let address ← readOptional (dictGet m "address")
  let lat ← pf.coerceFloat (dictGet m "lat")
  let lng ← pf.coerceFloat (dictGet m "lng")
  let day ← readDay pf (dictGet m "day")
  let contentId ← readOptional (dictGet m "content_id")
  match hcategory : readCategory (dictGet m "category") with
  | some category =>
    some ⟨name, address.getD "", lat, lng, day, contentId, category, readCategory_valid hcategory⟩
  | none => none

/-- The bounds of `SelectedPlace`. -/
def SelectedFields.check (f : SelectedFields) : Option SelectedPlace :=
  -- the proofs of the bounds go into the value
  if h : (lengthIn 1 80 f.name && cleanText f.name) = true ∧
      (lengthIn 0 200 f.address && cleanText f.address) = true ∧
      floatIn 33 43 f.lat = true ∧ floatIn 124 132 f.lng = true ∧ 1 ≤ f.day ∧
      f.contentId.all (fun s => lengthIn 0 64 s && cleanText s) = true then
    some {
      name := f.name
      address := f.address
      lat := f.lat
      lng := f.lng
      day := f.day
      contentId := f.contentId
      category := f.category
      name_valid := h.1
      address_valid := h.2.1
      lat_valid := h.2.2.1
      lng_valid := h.2.2.2.1
      one_le_day := h.2.2.2.2.1
      contentId_valid := h.2.2.2.2.2
      category_valid := f.category_valid }
  else none

/-- `SelectedPlace.model_validate`, if it does not raise. -/
def SelectedPlace.validate (pf : Platform) : Json → Option SelectedPlace
  | .obj m => (readSelected pf m).bind SelectedFields.check
  | _ => none

/-! ### Validating a request -/

/-- A request as the route gets it: what the graph reads, and the fields only
    the route reads or passes on. -/
structure RecommendRequest extends AgentRequest where
  scheduleId : Option String
  loc : Option String
  scheduleId_valid : scheduleId.all (lengthIn 0 64) = true
  loc_valid : loc.all (lengthIn 0 8192) = true

/-- What `model_dump` makes of a request: dates, numbers and texts stay what
    they are, the places become dictionaries. -/
structure RequestDump where
  date : DateRange
  budget : Option Int
  theme : Option (List String)
  mobility : Option Mobility
  province : String
  city : String
  scheduleId : Option String
  stage : Stage
  optimize : Bool
  exclude : Option (List String)
  places : Option Json
  loc : Option String

/-- A picked place as a dictionary, its fields in the order of the model. -/
def SelectedPlace.modelDump (p : SelectedPlace) : Json :=
  .obj [("name", .str p.name), ("address", .str p.address), ("lat", .float p.lat),
    ("lng", .float p.lng), ("day", .int p.day), ("content_id", p.contentId.elim .null .str),
    ("category", p.category.elim .null .str)]

/-- The fields of the request, its places dumped one by one. -/
def RecommendRequest.modelDump (req : RecommendRequest) : RequestDump where
  date := req.date
  budget := req.budget
  theme := req.theme
  mobility := req.mobility
  province := req.province
  city := req.city
  scheduleId := req.scheduleId
  stage := req.stage
  optimize := req.optimize
  exclude := req.exclude
  places := req.places.map fun l => .arr (l.map SelectedPlace.modelDump)
  loc := req.loc

/-- The list of places, if each is one. -/
def readPlaces (pf : Platform) : Option Json → Option (Option (List SelectedPlace))
  | none | some .null => some none
  | some (.arr l) => (l.mapM (SelectedPlace.validate pf)).map some
  | some _ => none

/-- `AgentRequest.model_validate` on a dumped request, if it does not raise. -/
def RequestDump.modelValidate (pf : Platform) (d : RequestDump) : Option RecommendRequest := do
  let places ← readPlaces pf d.places
  -- the model has no other bounds: the rest is kept by the types
  if h : lengthIn 1 20 d.province = true ∧ lengthIn 1 20 d.city = true ∧
      d.exclude.all (fun l => l.all (lengthIn 1 64) && l.length ≤ 50) = true ∧
      places.all (fun l => 1 ≤ l.length && l.length ≤ 10) = true ∧
      d.scheduleId.all (lengthIn 0 64) = true ∧ d.loc.all (lengthIn 0 8192) = true then
    some {
      date := d.date
      budget := d.budget
      theme := d.theme
      mobility := d.mobility
      province := d.province
      city := d.city
      stage := d.stage
      optimize := d.optimize
      exclude := d.exclude
      places := places
      scheduleId := d.scheduleId
      loc := d.loc
      province_valid := h.1
      city_valid := h.2.1
      exclude_valid := h.2.2.1
      places_valid := h.2.2.2.1
      scheduleId_valid := h.2.2.2.2.1
      loc_valid := h.2.2.2.2.2 }
  else none

/-! ### _resolve_places -/

/-- How a request is turned away: by an `HTTPException`, or by an exception
    nothing catches. -/
inductive Refusal where
  | http (status : Nat) (detail : String)
  | raised (e : PyExn)

/-- One answer for everything that is wrong with an envelope. -/
def invalidLocation : Refusal := .http 400 "invalid location"

/-- `_resolve_places`. -/
def resolvePlaces (w : Wire) (req : RecommendRequest) : Except Refusal RecommendRequest :=
  -- no key: places go in plain text
  if !w.enabled then .ok req
  else if req.loc.getD "" = "" then
    -- the first stage has no places picked
    if req.places.getD [] = [] then .ok req else .error invalidLocation
  else
    match w.openSeal (req.loc.getD "") with
    | .error .sealError => .error invalidLocation
    -- only a `SealError` is caught
    | .error (.raised e) => .error (.raised e)
    | .ok opened =>
      match dictGet opened "places" with
      | .arr places =>
        -- opened places are validated as those of a plain request
        match { req.modelDump with places := some (.arr places), loc := none }.modelValidate
          w.platform with
        | some resolved => .ok resolved
        | none => .error invalidLocation
      | _ => .error invalidLocation

end MapServiceAgent.Native

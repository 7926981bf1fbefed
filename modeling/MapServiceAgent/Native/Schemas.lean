import MapServiceAgent.Native.Calendar
import MapServiceAgent.Native.Sanitize

/-!
# Request, place, leg and payload schemas

A value of a schema carries what the schema library checked as a field, so a
value that fails validation cannot be built. `Place` is the one that is later
copied with updates nobody validates; its checks cover the fields no update
writes.
-/

namespace MapServiceAgent.Native

/-- `_FORBIDDEN_TEXT_RE`. -/
def isForbidden (c : Char) : Bool :=
  let n := c.toNat
  c == '<' || c == '>' || n == 0xff1c || n == 0xff1e ||
    n ≤ 0x08 || n == 0x0b || n == 0x0c || (0x0e ≤ n && n ≤ 0x1f) || (0x7f ≤ n && n ≤ 0x9f) ||
    (0x200b ≤ n && n ≤ 0x200f) || n == 0x2028 || n == 0x2029 || (0x202a ≤ n && n ≤ 0x202e) ||
    (0x2066 ≤ n && n ≤ 0x2069) || (0x2060 ≤ n && n ≤ 0x2064) || n == 0xfeff ||
    (0xe0000 ≤ n && n ≤ 0xe007f)

/-- `_reject_tags_and_control` accepts the text. -/
def cleanText (s : String) : Bool := !s.toList.any isForbidden

/-- `_reject_tags_and_control` accepts the optional text. -/
def cleanOptional (s : Option String) : Bool := s.all cleanText

/-- `Field(min_length=lo, max_length=hi)`. -/
def lengthIn (lo hi : Nat) (s : String) : Bool :=
  lo ≤ s.toList.length && s.toList.length ≤ hi

/-- `Field(ge=lo, le=hi)` on a float: the library refuses a value that is not on the
    right side of each bound, and with it `nan`, which is on no side of any. -/
def floatIn (lo hi : ℚ) (x : PyFloat) : Bool :=
  (PyFloat.fin lo).leb x && x.leb (.fin hi)

/-- A number between two bounds. -/
def NumberIn (lo hi : ℚ) (x : PyFloat) : Prop := ∃ q, x = .fin q ∧ lo ≤ q ∧ q ≤ hi

/-- What passes the check is a number between the bounds. -/
theorem floatIn_iff {lo hi : ℚ} {x : PyFloat} : floatIn lo hi x = true ↔ NumberIn lo hi x := by
  unfold NumberIn
  cases x <;> simp [floatIn, PyFloat.leb]

/-- How the travellers get around. -/
inductive Mobility where
  | walk
  | bicycle
  | scooter
  | car
  | transit
deriving DecidableEq, Repr

/-- `mobility.value`. -/
def Mobility.value : Mobility → String
  | walk => "walk"
  | bicycle => "bicycle"
  | scooter => "scooter"
  | car => "car"
  | transit => "transit"

/-- What a request asks for. -/
inductive Stage where
  | init
  | mode1
  | route
deriving DecidableEq, Repr

/-- The days of a trip, and the hours of each of them. -/
structure DateRange where
  dateStart : Date
  dateEnd : Date
  timeStart : Time
  timeEnd : Time
deriving DecidableEq, Repr

/-- The upper length of a category a request sends back. -/
def categoryMax : Nat := 80

/-- `_tidy_category` on a text: made harmless and cut; blank becomes `None`. -/
def tidyCategory (s : String) : Option String :=
  let tidy := takeChars categoryMax (strip (neutralizeTags s))
  if tidy = "" then none else some tidy

/-- A place the user picked. -/
structure SelectedPlace where
  name : String
  address : String
  lat : PyFloat
  lng : PyFloat
  day : Int
  contentId : Option String
  category : Option String
  name_valid : (lengthIn 1 80 name && cleanText name) = true
  address_valid : (lengthIn 0 200 address && cleanText address) = true
  lat_valid : floatIn 33 43 lat = true
  lng_valid : floatIn 124 132 lng = true
  one_le_day : 1 ≤ day
  contentId_valid : contentId.all (fun s => lengthIn 0 64 s && cleanText s) = true
  category_valid : category.all (fun s => lengthIn 1 categoryMax s && cleanText s) = true
deriving DecidableEq

/-- The body of `/v1/recommend`; `budget` only travels to the prompts. -/
structure AgentRequest where
  date : DateRange
  budget : Option Int
  theme : Option (List String)
  mobility : Option Mobility
  province : String
  city : String
  stage : Stage
  optimize : Bool
  exclude : Option (List String)
  places : Option (List SelectedPlace)
  province_valid : lengthIn 1 20 province = true
  city_valid : lengthIn 1 20 city = true
  exclude_valid : exclude.all (fun l => l.all (lengthIn 1 64) && l.length ≤ 50) = true
  places_valid : places.all (fun l => 1 ≤ l.length && l.length ≤ 10) = true

/-- The fields of a `Place` that its constructor sets. -/
structure PlaceFields where
  placeId : Int
  day : Int
  name : String
  address : String
  lat : PyFloat
  lng : PyFloat
  recommendedVisitTime : String
  contentId : Option String
  source : Option String
  category : Option String
  categoryGroupCode : Option String
  phone : Option String
  placeUrl : Option String
  crsDstncKm : Option PyFloat
  crsTotalMin : Option Int
  crsLevel : Option Int
  brdDiv : Option String
  gpxUrl : Option String
  routeIdx : Option String
  grounded : Bool
deriving DecidableEq, Repr

/-- What the schema of `Place` checks of them. -/
def PlaceFields.valid (p : PlaceFields) : Bool :=
  decide (1 ≤ p.day) && lengthIn 1 80 p.name && lengthIn 0 200 p.address &&
    floatIn 33 43 p.lat && floatIn 124 132 p.lng && lengthIn 0 50 p.recommendedVisitTime &&
    cleanText p.name && cleanText p.address && cleanText p.recommendedVisitTime &&
    cleanOptional p.contentId && cleanOptional p.source && cleanOptional p.category &&
    cleanOptional p.categoryGroupCode && cleanOptional p.phone && cleanOptional p.placeUrl &&
    cleanOptional p.brdDiv && cleanOptional p.gpxUrl && cleanOptional p.routeIdx

/-- A recommended place. The fields after `valid` are filled by unvalidated
    copies at the end of the pipeline. -/
structure Place extends PlaceFields where
  valid : toPlaceFields.valid = true
  stayMinutes : Option Int := none
  visitStart : Option String := none
  visitEnd : Option String := none
  staySource : Option String := none
  reason : Option String := none
  bullets : Option (List String) := none
deriving DecidableEq

/-- `Place(...)`. -/
def Place.build (p : PlaceFields) : Except PyExn Place :=
  if h : p.valid = true then .ok { p with valid := h } else .error .validationError

/-- `p.model_copy(update={"place_id": i})`. -/
def Place.withId (p : Place) (i : Int) : Place := { p with placeId := i, valid := p.valid }

/-- One stretch of the way between two places. -/
structure Leg where
  fromPlaceId : Int
  toPlaceId : Int
  mode : Mobility
  estimatedDistanceKm : PyFloat
  estimatedDurationMin : Int
  distance_valid : PyFloat.leb 0 estimatedDistanceKm = true
  duration_valid : 0 ≤ estimatedDurationMin
deriving DecidableEq

/-- `Leg(...)`. -/
def Leg.build (a b : Int) (mode : Mobility) (km : PyFloat) (minutes : Int) : Except PyExn Leg :=
  if h : PyFloat.leb 0 km = true ∧ 0 ≤ minutes then .ok ⟨a, b, mode, km, minutes, h.1, h.2⟩
  else .error .validationError

/-- One candidate the model picked. -/
structure PlaceSelection where
  index : Int
  day : Int
  recommendedVisitTime : String
  index_nonneg : 0 ≤ index
  one_le_day : 1 ≤ day
  time_valid : (lengthIn 0 50 recommendedVisitTime && cleanText recommendedVisitTime) = true
deriving DecidableEq, Repr

/-- The answer to the selection prompt. -/
structure PlacesSelection where
  selections : List PlaceSelection
deriving DecidableEq, Repr

/-- The model's reason for one place. -/
structure PlaceReason where
  placeId : Int
  reason : String
  reason_valid : (lengthIn 1 200 reason && cleanText reason) = true
deriving DecidableEq, Repr

/-- The answer to the reason prompt; a clothing text out of bounds is no answer. -/
structure ReasonEnvelope where
  reasons : List PlaceReason
  clothing : String
  clothing_valid : (lengthIn 1 300 clothing && cleanText clothing) = true
deriving DecidableEq, Repr

/-- What the visit times are worth. -/
inductive TimelineStatus where
  | ok
  | trimmed
  | unverified
deriving DecidableEq, Repr

/-- How a job has ended. -/
inductive JobStatus where
  | done
  | failed
deriving DecidableEq, Repr

/-- The message body of the done stream. -/
structure JobDonePayload where
  jobId : String
  status : JobStatus
  places : Option (List Place) := none
  visitOrder : Option (List Int) := none
  legs : Option (List Leg) := none
  clothing : Option String := none
  timelineStatus : Option TimelineStatus := none
  warnings : Option (List String) := none
  error : Option String := none
  code : Option String := none
  retryable : Option Bool := none
deriving DecidableEq

end MapServiceAgent.Native

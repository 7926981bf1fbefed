import MapServiceAgent.ForStd.Tally
import MapServiceAgent.Native.CandidateNodes

/-!
# The counts of what people kept

The offline program counts, for each kind of user, how often a place was shown
and how often it was saved, and writes the rates to a file. `_segment_stats`
reads that file back and `_segment_for` picks the counts of one kind of user.
-/

namespace MapServiceAgent.Native

/-! ### Counting the sessions -/

/-- `f"{age or 'unknown'}|{gender or 'unknown'}"`. -/
def userKey (pf : Platform) (age gender : Json) : String :=
  pyStr pf (age.orElse (.str "unknown")) ++ "|" ++ pyStr pf (gender.orElse (.str "unknown"))

/-- `segment_key`. -/
def segmentKey (pf : Platform) (user : Json) : Except PyExn String := do
  let age ← (user.orElse (.obj [])).get "age_band"
  let gender ← (user.orElse (.obj [])).get "gender"
  return userKey pf age gender

/-- The dictionaries that `build` counts in. -/
structure Tallies where
  shown : List (String × List (PyKey × Nat)) := []
  saved : List (String × List (PyKey × Nat)) := []
  sessionsPerSegment : List (String × Nat) := []
  used : Nat := 0

/-- One candidate of a session of segment `key`. -/
def countCandidate (key : String) (t : Tallies) : Json → Except PyExn Tallies
  | .obj m =>
    -- a candidate without an identifier is no statistic
    if !(dictGet m "content_id").truthy then .ok t
    else do
      let cid ← (dictGet m "content_id").key
      return { t with
        shown := bumpIn t.shown (key, cid)
        saved := if (dictGet m "saved").truthy then bumpIn t.saved (key, cid) else t.saved }
  | _ => .error .attributeError

/-- One session: what cannot be learned from is not counted. -/
def countRow (pf : Platform) (t : Tallies) : Json → Except PyExn Tallies
  | .obj m =>
    -- sessions not meant for learning are skipped before anything is read
    if !(dictGet m "l1_eligible").truthy then .ok t
    else do
      let key ← segmentKey pf ((dictGet m "user_segment").orElse (.obj []))
      let candidates ← ((dictGet m "candidates").orElse (.arr [])).iter
      candidates.foldlM (countCandidate key)
        { t with sessionsPerSegment := bump t.sessionsPerSegment key, used := t.used + 1 }
  | _ => .error .attributeError

/-! ### The statistics -/

/-- `round(q, 4)`. -/
def round4 (q : ℚ) : ℚ := roundHalfEven (q * 10000) / 10000

/-- How often a place was shown and saved. -/
structure PlaceStat where
  shown : Nat
  saved : Nat
  rate : ℚ
deriving DecidableEq, Repr

/-- What is kept of a segment. -/
structure SegmentEntry where
  sessions : Nat
  places : List (PyKey × PlaceStat)
deriving DecidableEq, Repr

/-- What `build` returns. -/
structure SegmentStats where
  minSupport : Int
  sessionsUsed : Nat
  segments : List (String × SegmentEntry)
  droppedBelowSupport : Nat
deriving DecidableEq, Repr

/-- The statistics of a place shown `n` times, if that is often enough. -/
def Tallies.place? (t : Tallies) (minSupport : Int) (key : String) (cid : PyKey) (n : Nat) :
    Option PlaceStat :=
  -- shown too seldom to say anything
  if n < minSupport then none
  else
    let saved := (pairCount t.saved (key, cid)).getD 0
    some { shown := n, saved := saved, rate := round4 (saved / n) }

/-- The entry of a segment, if any of its places stays. -/
def Tallies.segment? (t : Tallies) (minSupport : Int) (key : String)
    (counts : List (PyKey × Nat)) : Option SegmentEntry :=
  let places := keepEntries (t.place? minSupport key) counts
  if places.isEmpty then none
  else some { sessions := (t.sessionsPerSegment.lookup key).getD 0, places := places }

/-- What the counts come to; pairs below the support are dropped and only counted. -/
def Tallies.stats (t : Tallies) (minSupport : Int) : SegmentStats where
  minSupport := minSupport
  sessionsUsed := t.used
  segments := keepEntries (t.segment? minSupport) t.shown
  droppedBelowSupport := (pairCounts t.shown).countP fun e => decide (e.2 < minSupport)

/-- `build`. -/
def build (pf : Platform) (rows : List Json) (minSupport : Int) : Except PyExn SegmentStats := do
  let t ← rows.foldlM (countRow pf) {}
  return t.stats minSupport

/-! ### The file -/

/-- `STATS_SCHEMA_VERSION`. -/
def statsSchemaVersion : Int := 1

/-- A key of a dictionary as `json.dumps` writes it; `numberText` is how it
    writes a number. -/
def PyKey.text (numberText : PyFloat → String) : PyKey → String
  | null => "null"
  | num x => numberText x
  | str s => s

/-- The counts as the file has them. -/
def PlaceStat.toJson (p : PlaceStat) : Json :=
  .obj [("shown", .int p.shown), ("saved", .int p.saved), ("rate", .float (.fin p.rate))]

/-- The sessions, and the places under the texts of their keys. -/
def SegmentEntry.toJson (numberText : PyFloat → String) (e : SegmentEntry) : Json :=
  .obj [("sessions", .int e.sessions),
    ("places", .obj (e.places.map fun f => (f.1.text numberText, f.2.toJson)))]

/-- The fields of the file, as `json.load` reads them back. -/
def SegmentStats.jsonFields (numberText : PyFloat → String) (s : SegmentStats) :
    List (String × Json) :=
  [("schema_version", .int statsSchemaVersion), ("min_support", .int s.minSupport),
   ("sessions_used", .int s.sessionsUsed),
   ("segments", .obj (s.segments.map fun e => (e.1, e.2.toJson numberText))),
   ("dropped_below_support", .int s.droppedBelowSupport)]

/-! ### Reading it -/

/-- What the loop of `_segment_stats` demands of a segment. -/
def hasPlaces : Json → Bool
  | .obj segment =>
    match (segment.lookup "places").getD (.obj []) with
    | .obj places => places.all fun e => e.2.isDict
    | _ => false
  | _ => false

/-- What `_segment_stats` demands of the file: `None` where it raises a `ValueError`. -/
def checkStats : Json → Option (List (String × Json))
  | .obj stats =>
    match (stats.lookup "segments").getD (.obj []) with
    | .obj segments => if segments.all fun e => hasPlaces e.2 then some stats else none
    | _ => none
  | _ => none

/-- `_segment_stats`: `file` is what the file holds, if there is one that can be
    read. Whatever fails, there are no counts. -/
def segmentStats (file : Option Json) : List (String × Json) := (file.bind checkStats).getD []

/-- `_segment_for`. -/
def segmentForUser (pf : Platform) (stats : List (String × Json)) (ageBand gender : Json) :
    Except PyExn Json :=
  ((dictGet stats "segments").orElse (.obj [])).get (userKey pf ageBand gender)

end MapServiceAgent.Native

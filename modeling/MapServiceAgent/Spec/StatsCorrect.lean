import MapServiceAgent.Native.SegmentStats
import MapServiceAgent.Spec.AgentGraphCorrect
import MapServiceAgent.Spec.TasteCorrect

/-!
# The counts are what the sessions show

Each session shows its places to one kind of user. What is kept of a kind of
user is exactly the places shown to it often enough, with how often they were
shown and saved. The order of sessions and candidates does not matter, and the
program that reads the file accepts all of it and adds each rate's share.

## Key results

- `build_eq`: the statistics are those of what was shown
- `SegmentStats.Counts`, `SegmentStats.Served`: what the file holds, and what it adds
- `build_correct`: both hold of every file, in whatever order it was counted
-/

namespace MapServiceAgent.Native

variable {pf : Platform}

/-! ### What the sessions show -/

/-- `v.get(k)`, if there is such a thing. -/
def field (v : Json) (k : String) : Json :=
  match v with
  | .obj m => dictGet m k
  | _ => .null

/-- The session counts. -/
def isEligible (row : Json) : Bool := (field row "l1_eligible").truthy

/-- The kind of user of a session. -/
def segmentOfRow (pf : Platform) (row : Json) : String :=
  userKey pf (field (field row "user_segment") "age_band") (field (field row "user_segment") "gender")

/-- The candidates shown in a session. -/
def candidatesOf (row : Json) : List Json :=
  match field row "candidates" with
  | .arr l => l
  | _ => []

/-- A place shown in a session, and whether it was saved. -/
structure Impression where
  segment : String
  place : String
  saved : Bool

/-- What a candidate shows to a kind of user, if it has an identifier. -/
def impression? (segment : String) (c : Json) : Option Impression :=
  match field c "content_id" with
  | .str cid => if cid = "" then none else some ⟨segment, cid, (field c "saved").truthy⟩
  | _ => none

/-- What a session that counts has shown. -/
def impressionsOf (pf : Platform) (row : Json) : List Impression :=
  if isEligible row then (candidatesOf row).filterMap (impression? (segmentOfRow pf row)) else []

/-- What all sessions show that count. -/
def impressions (pf : Platform) (rows : List Json) : List Impression :=
  rows.flatMap (impressionsOf pf)

/-- The kinds of users of the sessions that count, one for each session. -/
def sessionSegments (pf : Platform) (rows : List Json) : List String :=
  (rows.filter isEligible).map (segmentOfRow pf)

/-- The segment and the place it is counted under. -/
def Impression.pair (i : Impression) : String × PyKey := (i.segment, .str i.place)

/-- The pairs of a kind of user and a place, once for each time it was shown. -/
def shownPairs (pf : Platform) (rows : List Json) : List (String × PyKey) :=
  (impressions pf rows).map Impression.pair

/-- The same, once for each time it was saved. -/
def savedPairs (pf : Platform) (rows : List Json) : List (String × PyKey) :=
  ((impressions pf rows).filter (·.saved)).map Impression.pair

/-- A candidate is a dictionary whose identifier, if it has one, is a text. -/
def IsCandidate (c : Json) : Prop :=
  c.isDict = true ∧ ((field c "content_id").truthy = true → ∃ cid, field c "content_id" = .str cid)

/-- A session: a dictionary with a user, if any, and a list of candidates, if any. -/
structure IsSession (row : Json) : Prop where
  isDict : row.isDict = true
  user : (field row "user_segment").truthy = true → (field row "user_segment").isDict = true
  candidates : (field row "candidates").truthy = true → ∃ l, field row "candidates" = .arr l
  isCandidate : ∀ c ∈ candidatesOf row, IsCandidate c

/-! ### Counting them -/

/-- The dictionaries after some more impressions of some more sessions. -/
def Tallies.after (t : Tallies) (shown : List Impression) (sessions : List String) : Tallies where
  shown := (shown.map Impression.pair).foldl bumpIn t.shown
  saved := ((shown.filter (·.saved)).map Impression.pair).foldl bumpIn t.saved
  sessionsPerSegment := sessions.foldl bump t.sessionsPerSegment
  used := t.used + sessions.length

/-- Counting some and then others is counting them together. -/
theorem Tallies.after_after (t : Tallies) (shown shown' : List Impression)
    (sessions sessions' : List String) :
    (t.after shown sessions).after shown' sessions' =
      t.after (shown ++ shown') (sessions ++ sessions') := by
  simp [Tallies.after, List.foldl_append, Nat.add_assoc]

/-- A candidate is counted once, under its identifier, or not at all. -/
theorem countCandidate_eq {key : String} {c : Json} (h : IsCandidate c) (t : Tallies) :
    countCandidate key t c = .ok (t.after (impression? key c).toList []) := by
  obtain ⟨hdict, hcid⟩ := h
  cases c with
  | obj m =>
    change (dictGet m "content_id").truthy = true → ∃ cid, dictGet m "content_id" = .str cid at hcid
    rw [countCandidate, impression?, field]
    cases htruthy : (dictGet m "content_id").truthy with
    | false =>
      -- nothing to count it under: an empty text, or no text
      rw [if_pos (by rfl)]
      split
      · rename_i cid hstr
        have hempty : cid = "" := by simpa [hstr, Json.truthy] using htruthy
        rw [if_pos hempty]
        rfl
      · rfl
    | true =>
      obtain ⟨cid, hstr⟩ := hcid htruthy
      -- shown, and saved or not
      have hne : cid ≠ "" := by simpa [hstr, Json.truthy] using htruthy
      rw [if_neg (by decide), hstr]
      dsimp only [Json.key, bind, Except.bind, pure, Except.pure]
      rw [if_neg hne]
      cases hsaved : (dictGet m "saved").truthy <;>
        simp [Tallies.after, Impression.pair, field, hsaved]
  | null | bool | int | float | str | arr => cases hdict

/-- The candidates of a session are counted one after the other. -/
theorem foldlM_countCandidate_eq {key : String} {cs : List Json} (h : ∀ c ∈ cs, IsCandidate c)
    (t : Tallies) :
    cs.foldlM (countCandidate key) t = .ok (t.after (cs.filterMap (impression? key)) []) := by
  induction cs generalizing t with
  | nil => rfl
  | cons c cs ih =>
    obtain ⟨hc, hcs⟩ := List.forall_mem_cons.mp h
    rw [List.foldlM_cons, countCandidate_eq hc, bind_of_eq_ok rfl, ih hcs, Tallies.after_after]
    cases hi : impression? key c <;> simp [hi]

/-- A session is counted under the key of its user. -/
theorem segmentKey_eq {user : Json} (h : user.truthy = true → user.isDict = true) :
    segmentKey pf (user.orElse (.obj [])) =
      .ok (userKey pf (field user "age_band") (field user "gender")) := by
  cases htruthy : user.truthy with
  | true =>
    have hdict := h htruthy
    cases user with
    | obj m => simp only [Json.orElse, htruthy, if_true, segmentKey, field]; rfl
    | null | bool | int | float | str | arr => cases hdict
  | false =>
    -- a user that is empty, or none, has none of the fields
    have hnone : ∀ k, field user k = .null := by
      intro k
      cases user with
      | obj m =>
        cases m with
        | nil => rfl
        | cons e m => cases htruthy
      | null | bool | int | float | str | arr => rfl
    rw [hnone, hnone, Json.orElse, if_neg (by simp [htruthy])]
    rfl

/-- The candidates of a session are gone through in order. -/
theorem iter_candidates {row : Json}
    (h : (field row "candidates").truthy = true → ∃ l, field row "candidates" = .arr l) :
    ((field row "candidates").orElse (.arr [])).iter = .ok (candidatesOf row) := by
  rw [candidatesOf]
  cases htruthy : (field row "candidates").truthy with
  | true =>
    obtain ⟨l, hl⟩ := h htruthy
    rw [hl]
    exact Json.iter_orElse_arr l
  | false =>
    -- an empty list, or none: the default is empty as well
    rw [Json.orElse, if_neg (by simp [htruthy])]
    split
    · rename_i l hl
      rw [hl] at htruthy
      cases l with
      | nil => rfl
      | cons a l => cases htruthy
    · rfl

/-- A session is counted with what it has shown, or not at all. -/
theorem countRow_eq {row : Json} (h : IsSession row) (t : Tallies) :
    countRow pf t row = .ok (t.after (impressionsOf pf row) (sessionSegments pf [row])) := by
  obtain ⟨hdict, huser, hcandidates, hcandidate⟩ := h
  cases row with
  | obj m =>
    have hsession : isEligible (.obj m) = (dictGet m "l1_eligible").truthy := rfl
    rw [countRow, impressionsOf, sessionSegments, List.filter_singleton, hsession]
    cases (dictGet m "l1_eligible").truthy with
    | false => rfl
    | true =>
      rw [if_neg (by decide), if_pos rfl]
      -- the fields of the source under the names of the specification
      change (do
        let key ← segmentKey pf ((field (.obj m) "user_segment").orElse (.obj []))
        let candidates ← ((field (.obj m) "candidates").orElse (.arr [])).iter
        candidates.foldlM (countCandidate key)
          { t with sessionsPerSegment := bump t.sessionsPerSegment key, used := t.used + 1 }) = _
      rw [bind_of_eq_ok (segmentKey_eq huser), bind_of_eq_ok (iter_candidates hcandidates)]
      exact foldlM_countCandidate_eq hcandidate _
  | null | bool | int | float | str | arr => cases hdict

/-- The segments of more sessions are appended. -/
theorem sessionSegments_append (rows rows' : List Json) :
    sessionSegments pf (rows ++ rows') = sessionSegments pf rows ++ sessionSegments pf rows' := by
  rw [sessionSegments, List.filter_append, List.map_append]
  rfl

/-- The sessions are counted one after the other. -/
theorem foldlM_countRow_eq {rows : List Json} (h : ∀ row ∈ rows, IsSession row) (t : Tallies) :
    rows.foldlM (countRow pf) t =
      .ok (t.after (impressions pf rows) (sessionSegments pf rows)) := by
  induction rows generalizing t with
  | nil => rfl
  | cons row rows ih =>
    obtain ⟨hrow, hrows⟩ := List.forall_mem_cons.mp h
    rw [List.foldlM_cons, bind_of_eq_ok (countRow_eq hrow t), ih hrows, Tallies.after_after,
      ← sessionSegments_append]
    rfl

/-- What is counted when all sessions have been. -/
def tallies (pf : Platform) (rows : List Json) : Tallies :=
  ({} : Tallies).after (impressions pf rows) (sessionSegments pf rows)

/-- The statistics are those of what was shown. -/
theorem build_eq {rows : List Json} (h : ∀ row ∈ rows, IsSession row) (minSupport : Int) :
    build pf rows minSupport = .ok ((tallies pf rows).stats minSupport) := by
  rw [build, bind_of_eq_ok (foldlM_countRow_eq h {})]
  rfl

/-- No segment and no place has two counters. -/
theorem wellKeyed_tallies (pf : Platform) (rows : List Json) : WellKeyed (tallies pf rows).shown :=
  wellKeyed_nil.foldl_bumpIn (shownPairs pf rows)

/-- A place has a counter when it was shown, and it says how often. -/
theorem pairCount_shown (pf : Platform) (rows : List Json) (p : String × PyKey) :
    pairCount (tallies pf rows).shown p =
      if p ∈ shownPairs pf rows then some ((shownPairs pf rows).count p) else none := by
  rw [tallies, Tallies.after, ← shownPairs, pairCount_foldl_bumpIn]
  simp [pairCount]

/-- How often it was saved is counted as well. -/
theorem pairCount_saved (pf : Platform) (rows : List Json) (p : String × PyKey) :
    (pairCount (tallies pf rows).saved p).getD 0 = (savedPairs pf rows).count p := by
  rw [tallies, Tallies.after, ← savedPairs, pairCount_foldl_bumpIn]
  split
  · simp [pairCount]
  · rename_i hmem
    rw [List.count_eq_zero_of_not_mem hmem]
    rfl

/-- So is how many sessions a segment has. -/
theorem lookup_sessions (pf : Platform) (rows : List Json) (key : String) :
    ((tallies pf rows).sessionsPerSegment.lookup key).getD 0 =
      (sessionSegments pf rows).count key := by
  rw [tallies, Tallies.after, lookup_foldl_bump]
  split
  · simp
  · rename_i hmem
    rw [List.count_eq_zero_of_not_mem hmem]
    rfl

/-- No place is saved more often than it is shown. -/
theorem saved_le_shown (pf : Platform) (rows : List Json) (p : String × PyKey) :
    (savedPairs pf rows).count p ≤ (shownPairs pf rows).count p :=
  (List.filter_sublist.map _).count_le p

/-! ### What is kept -/

/-- The statistics of a place for a kind of user, if they were kept. -/
def SegmentStats.place (s : SegmentStats) (key : String) (cid : PyKey) : Option PlaceStat :=
  (s.segments.lookup key).bind fun e => e.places.lookup cid

/-- How many entries were kept. -/
def SegmentStats.keptCount (s : SegmentStats) : Nat :=
  (s.segments.map fun e => e.2.places.length).sum

/-- How often a place was shown to a kind of user and saved. -/
def placeStat (pf : Platform) (rows : List Json) (p : String × PyKey) : PlaceStat where
  shown := (shownPairs pf rows).count p
  saved := (savedPairs pf rows).count p
  rate := round4 ((savedPairs pf rows).count p / (shownPairs pf rows).count p)

/-- The statistics are exactly what the sessions show. -/
structure SegmentStats.Counts (pf : Platform) (rows : List Json) (minSupport : Int)
    (s : SegmentStats) : Prop where
  support : s.minSupport = minSupport
  used : s.sessionsUsed = (sessionSegments pf rows).length
  keys : (s.segments.map Prod.fst).Nodup
  entry : ∀ e ∈ s.segments, (e.2.places.map Prod.fst).Nodup ∧ e.2.places ≠ [] ∧
    e.2.sessions = (sessionSegments pf rows).count e.1
  /-- The places kept are those shown, and often enough. -/
  place : ∀ key cid, s.place key cid =
    if 0 < (shownPairs pf rows).count (key, cid) ∧
        minSupport ≤ (shownPairs pf rows).count (key, cid) then
      some (placeStat pf rows (key, cid))
    else none
  saved_le_shown : ∀ key cid stat, s.place key cid = some stat → stat.saved ≤ stat.shown
  dropped : s.droppedBelowSupport =
    (shownPairs pf rows).dedup.countP fun p => decide ((shownPairs pf rows).count p < minSupport)
  /-- Nothing shown is forgotten. -/
  total : s.droppedBelowSupport + s.keptCount = (shownPairs pf rows).dedup.length

section Stats

variable {t : Tallies} {minSupport : Int} {key : String}

/-- A place stays when it has the support. -/
theorem isSome_place? (cid : PyKey) (n : Nat) :
    (t.place? minSupport key cid n).isSome = !decide (n < minSupport) := by
  unfold Tallies.place?
  by_cases h : n < minSupport <;> simp [h]

/-- An entry lists the places that stay, and there is none when none stays. -/
theorem lookup_segment? (counts : List (PyKey × Nat)) (cid : PyKey) :
    ((t.segment? minSupport key counts).bind fun e => e.places.lookup cid) =
      (keepEntries (t.place? minSupport key) counts).lookup cid := by
  unfold Tallies.segment?
  dsimp only
  split
  · rename_i hempty
    rw [List.isEmpty_iff.mp hempty]
    rfl
  · rfl

/-- As many places stay in a segment as have the support. -/
theorem length_segment? (counts : List (PyKey × Nat)) :
    ((t.segment? minSupport key counts).map fun e => e.places.length).getD 0 =
      counts.countP fun f => !decide (f.2 < minSupport) := by
  have hlength : (keepEntries (t.place? minSupport key) counts).length =
      counts.countP fun f => !decide (f.2 < minSupport) := by
    rw [length_keepEntries]
    simp only [isSome_place?]
  rw [← hlength]
  unfold Tallies.segment?
  dsimp only
  split
  · -- none stays, so there is no entry to count
    rename_i hempty
    rw [List.isEmpty_iff.mp hempty]
    rfl
  · rfl

/-- A place is looked up among those that stay. -/
theorem place_stats (h : WellKeyed t.shown) (cid : PyKey) :
    (t.stats minSupport).place key cid =
      (pairCount t.shown (key, cid)).bind (t.place? minSupport key cid) := by
  rw [SegmentStats.place, Tallies.stats, lookup_keepEntries h.keys, pairCount]
  cases hcounts : t.shown.lookup key with
  | none => rfl
  | some counts =>
    rw [Option.bind_some, Option.bind_some, lookup_segment?,
      lookup_keepEntries (h.inner _ (mem_of_lookup hcounts))]

/-- As many places stay in all as have the support. -/
theorem keptCount_stats (t : Tallies) (minSupport : Int) : (t.stats minSupport).keptCount =
    (pairCounts t.shown).countP fun e => !decide (e.2 < minSupport) := by
  rw [SegmentStats.keptCount, Tallies.stats, sum_keepEntries (t.segment? minSupport) (·.places.length),
    pairCounts, List.countP_flatMap]
  simp only [length_segment?, Function.comp_def, List.countP_map]

/-- A place is kept with its counts when it was shown, and often enough. -/
theorem place_tallies (pf : Platform) (rows : List Json) (minSupport : Int) (key : String)
    (cid : PyKey) : ((tallies pf rows).stats minSupport).place key cid =
    if 0 < (shownPairs pf rows).count (key, cid) ∧
        minSupport ≤ (shownPairs pf rows).count (key, cid) then
      some (placeStat pf rows (key, cid))
    else none := by
  rw [place_stats (wellKeyed_tallies pf rows), pairCount_shown]
  by_cases hmem : (key, cid) ∈ shownPairs pf rows
  · rw [if_pos hmem, Option.bind_some, Tallies.place?, pairCount_saved]
    by_cases hsupport : (shownPairs pf rows).count (key, cid) < minSupport
    · -- shown, but not often enough
      rw [if_pos hsupport, if_neg fun h => absurd hsupport (not_lt.mpr h.2)]
    · rw [if_neg hsupport, if_pos ⟨List.count_pos_iff.mpr hmem, not_lt.mp hsupport⟩]
      rfl
  · -- never shown, so no support is low enough
    rw [if_neg hmem, if_neg fun h => hmem (List.count_pos_iff.mp h.1)]
    rfl

/-- A segment lists different places, one at least, and counts its sessions. -/
theorem entry_tallies {rows : List Json} {e : String × SegmentEntry}
    (he : e ∈ ((tallies pf rows).stats minSupport).segments) :
    (e.2.places.map Prod.fst).Nodup ∧ e.2.places ≠ [] ∧
      e.2.sessions = (sessionSegments pf rows).count e.1 := by
  obtain ⟨counts, hcounts, hentry⟩ := mem_keepEntries.mp he
  unfold Tallies.segment? at hentry
  dsimp only at hentry
  split at hentry
  · cases hentry
  · rename_i hplaces
    rw [← Option.some.inj hentry]
    refine ⟨?_, fun hnil => hplaces (List.isEmpty_iff.mpr hnil), lookup_sessions pf rows e.1⟩
    exact (keys_keepEntries_sublist _ _).nodup ((wellKeyed_tallies pf rows).inner _ hcounts)

/-- The places dropped are those without the support. -/
theorem dropped_tallies (pf : Platform) (rows : List Json) (minSupport : Int) :
    ((tallies pf rows).stats minSupport).droppedBelowSupport =
      (shownPairs pf rows).dedup.countP fun p =>
        decide ((shownPairs pf rows).count p < minSupport) :=
  countP_pairCounts (shownPairs pf rows) fun n => decide (n < minSupport)

/-- Every place shown is kept or dropped. -/
theorem total_tallies (pf : Platform) (rows : List Json) (minSupport : Int) :
    ((tallies pf rows).stats minSupport).droppedBelowSupport +
      ((tallies pf rows).stats minSupport).keptCount = (shownPairs pf rows).dedup.length := by
  let few : (String × PyKey) × Nat → Bool := fun e => decide (e.2 < minSupport)
  have hpairs : (pairCounts (tallies pf rows).shown).length = (shownPairs pf rows).dedup.length := by
    rw [← (pairCounts_perm (shownPairs pf rows)).length_eq, List.length_map]
    rfl
  rw [keptCount_stats, ← hpairs, List.length_eq_countP_add_countP few]
  simp [few, Tallies.stats, ← decide_not]

/-- What the sessions show is what is kept. -/
theorem counts_tallies (pf : Platform) (rows : List Json) (minSupport : Int) :
    ((tallies pf rows).stats minSupport).Counts pf rows minSupport where
  support := rfl
  used := Nat.zero_add _
  keys := (keys_keepEntries_sublist _ _).nodup (wellKeyed_tallies pf rows).keys
  entry _ he := entry_tallies he
  place := place_tallies pf rows minSupport
  saved_le_shown key cid stat hstat := by
    rw [place_tallies] at hstat
    split at hstat
    · cases hstat
      exact saved_le_shown pf rows (key, cid)
    · cases hstat
  dropped := dropped_tallies pf rows minSupport
  total := total_tallies pf rows minSupport

end Stats

/-! ### The order of counting -/

/-- The same session, its candidates in some other order. -/
inductive RowShuffled : Json → Json → Prop where
  | same (row : Json) : RowShuffled row row
  | candidates {m : List (String × Json)} {l l' : List Json}
      (h : dictGet m "candidates" = .arr l) (hperm : l.Perm l') :
      RowShuffled (.obj m) (.obj (dictSet m "candidates" (.arr l')))

/-- The same sessions in some other order, their candidates as well. -/
def Shuffled (rows rows' : List Json) : Prop :=
  ∃ mid, List.Forall₂ RowShuffled rows mid ∧ mid.Perm rows'

/-- Two statistics are equal as dictionaries: each key finds the same. -/
structure SegmentStats.Same (s s' : SegmentStats) : Prop where
  support : s.minSupport = s'.minSupport
  used : s.sessionsUsed = s'.sessionsUsed
  dropped : s.droppedBelowSupport = s'.droppedBelowSupport
  sessions : ∀ key, (s.segments.lookup key).map (·.sessions) = (s'.segments.lookup key).map (·.sessions)
  place : ∀ key cid, s.place key cid = s'.place key cid

/-- Shuffling the candidates leaves the other fields. -/
theorem field_shuffled {row row' : Json} (h : RowShuffled row row') {k : String}
    (hk : k ≠ "candidates") : field row' k = field row k := by
  cases h with
  | same => rfl
  | candidates => exact dictGet_dictSet_ne _ hk

/-- The candidates are the same, in another order. -/
theorem candidatesOf_shuffled {row row' : Json} (h : RowShuffled row row') :
    (candidatesOf row).Perm (candidatesOf row') := by
  cases h with
  | same => exact .refl _
  | @candidates m l l' hl hperm =>
    have hold : candidatesOf (.obj m) = l := by
      rw [candidatesOf, field, hl]
    have hnew : candidatesOf (.obj (dictSet m "candidates" (.arr l'))) = l' := by
      rw [candidatesOf, field, dictGet_dictSet_self]
    rw [hold, hnew]
    exact hperm

/-- Whether the session counts stays. -/
theorem isEligible_shuffled {row row' : Json} (h : RowShuffled row row') :
    isEligible row' = isEligible row := by
  rw [isEligible, field_shuffled h (by decide), isEligible]

/-- So does its segment. -/
theorem segmentOfRow_shuffled {row row' : Json} (h : RowShuffled row row') :
    segmentOfRow pf row' = segmentOfRow pf row := by
  rw [segmentOfRow, field_shuffled h (by decide), segmentOfRow]

/-- What it has shown is the same, in another order. -/
theorem impressionsOf_shuffled {row row' : Json} (h : RowShuffled row row') :
    (impressionsOf pf row).Perm (impressionsOf pf row') := by
  rw [impressionsOf, impressionsOf, isEligible_shuffled h, segmentOfRow_shuffled h]
  split
  · exact (candidatesOf_shuffled h).filterMap _
  · exact .refl _

/-- A shuffled session is a session. -/
theorem IsSession.shuffled {row row' : Json} (hrow : IsSession row) (h : RowShuffled row row') :
    IsSession row' where
  isDict := by
    cases h with
    | same => exact hrow.isDict
    | candidates => rfl
  user := by
    rw [field_shuffled h (by decide)]
    exact hrow.user
  candidates := by
    cases h with
    | same => exact hrow.candidates
    | @candidates m l l' hl hperm => exact fun _ => ⟨l', dictGet_dictSet_self m "candidates" _⟩
  isCandidate c hc := hrow.isCandidate c ((candidatesOf_shuffled h).mem_iff.mpr hc)

section Shuffled

variable {rows rows' : List Json}

/-- Shuffled sessions are sessions. -/
theorem Shuffled.isSession (h : Shuffled rows rows') (hrows : ∀ row ∈ rows, IsSession row) :
    ∀ row ∈ rows', IsSession row := by
  obtain ⟨mid, hmid, hperm⟩ := h
  intro row' hrow'
  obtain ⟨row, hrow, hshuffled⟩ := exists_of_mem_right hmid (hperm.mem_iff.mpr hrow')
  exact (hrows row hrow).shuffled hshuffled

/-- Shuffled sessions have shown the same, in another order. -/
theorem impressions_shuffled (h : Shuffled rows rows') :
    (impressions pf rows).Perm (impressions pf rows') := by
  obtain ⟨mid, hmid, hperm⟩ := h
  -- first inside the sessions, then the sessions themselves
  have hinside : (impressions pf rows).Perm (impressions pf mid) := by
    clear hperm
    induction hmid with
    | nil => exact .refl _
    | cons hrow hrest ih => exact (impressionsOf_shuffled hrow).append ih
  exact hinside.trans (hperm.flatMap_right _)

/-- They are of the same segments, in another order. -/
theorem sessionSegments_shuffled (h : Shuffled rows rows') :
    (sessionSegments pf rows).Perm (sessionSegments pf rows') := by
  obtain ⟨mid, hmid, hperm⟩ := h
  have hinside : sessionSegments pf rows = sessionSegments pf mid := by
    clear hperm
    unfold sessionSegments at *
    -- a shuffle inside a session changes neither its user nor whether it counts
    induction hmid with
    | nil => rfl
    | cons hrow hrest ih =>
      rw [List.filter_cons, List.filter_cons, isEligible_shuffled hrow]
      split
      · rw [List.map_cons, List.map_cons, segmentOfRow_shuffled hrow, ih]
      · exact ih
  rw [hinside]
  exact (hperm.filter _).map _

/-- The pairs shown are the same, in another order. -/
theorem shownPairs_shuffled (h : Shuffled rows rows') :
    (shownPairs pf rows).Perm (shownPairs pf rows') :=
  (impressions_shuffled h).map _

/-- So are the pairs saved. -/
theorem savedPairs_shuffled (h : Shuffled rows rows') :
    (savedPairs pf rows).Perm (savedPairs pf rows') :=
  ((impressions_shuffled h).filter _).map _

/-- So the counts of a place are the same. -/
theorem placeStat_shuffled (h : Shuffled rows rows') (p : String × PyKey) :
    placeStat pf rows p = placeStat pf rows' p := by
  rw [placeStat, (shownPairs_shuffled h).count_eq, (savedPairs_shuffled h).count_eq, placeStat]

section Counts

variable {s s' : SegmentStats} {minSupport : Int}

/-- A kind of user is listed while some place of it is kept. -/
theorem SegmentStats.Counts.sessions_iff (h : s.Counts pf rows minSupport) (key : String) (n : Nat) :
    (s.segments.lookup key).map (·.sessions) = some n ↔
      (∃ cid stat, s.place key cid = some stat) ∧ (sessionSegments pf rows).count key = n := by
  rw [Option.map_eq_some_iff]
  constructor
  · rintro ⟨e, he, rfl⟩
    obtain ⟨-, hplaces, hsessions⟩ := h.entry (key, e) (mem_of_lookup he)
    obtain ⟨⟨cid, stat⟩, rest, hcons⟩ := List.exists_cons_of_ne_nil hplaces
    refine ⟨⟨cid, stat, ?_⟩, hsessions.symm⟩
    rw [SegmentStats.place, he, Option.bind_some, hcons, List.lookup_cons, beq_self_eq_true]
  · rintro ⟨⟨cid, stat, hstat⟩, rfl⟩
    obtain ⟨e, he, -⟩ := Option.bind_eq_some_iff.mp hstat
    exact ⟨e, he, (h.entry (key, e) (mem_of_lookup he)).2.2⟩

/-- Statistics of shuffled sessions are the same. -/
theorem SegmentStats.Counts.same (h : s.Counts pf rows minSupport)
    (h' : s'.Counts pf rows' minSupport) (hshuffled : Shuffled rows rows') : s.Same s' := by
  have hperm : (shownPairs pf rows).Perm (shownPairs pf rows') := shownPairs_shuffled hshuffled
  have hplace : ∀ key cid, s.place key cid = s'.place key cid := by
    intro key cid
    rw [h.place, h'.place, placeStat_shuffled hshuffled, hperm.count_eq]
  refine ⟨h.support.trans h'.support.symm, ?_, ?_, fun key => ?_, hplace⟩
  · rw [h.used, h'.used, (sessionSegments_shuffled hshuffled).length_eq]
  · rw [h.dropped, h'.dropped, hperm.dedup.countP_eq]
    simp only [hperm.count_eq]
  · ext n
    rw [h.sessions_iff, h'.sessions_iff, (sessionSegments_shuffled hshuffled).count_eq]
    simp only [hplace]

end Counts

end Shuffled

/-! ### What the file adds -/

/-- A segment of the file, `null` when it has no such segment. -/
def SegmentStats.segmentJson (numberText : PyFloat → String) (s : SegmentStats) (key : String) :
    Json :=
  ((s.segments.lookup key).map (·.toJson numberText)).getD .null

/-- The service takes the file as it is, finds each kind of user in it, and each
    place adds its rate's share of a tenth. -/
structure SegmentStats.Served (pf : Platform) (numberText : PyFloat → String) (s : SegmentStats) :
    Prop where
  loaded : segmentStats (some (.obj (s.jsonFields numberText))) = s.jsonFields numberText
  found : ∀ ageBand gender, segmentForUser pf (s.jsonFields numberText) ageBand gender =
    .ok (s.segmentJson numberText (userKey pf ageBand gender))
  rate : ∀ key cid stat, s.place key cid = some stat →
    segmentRate pf stat.toJson = some stat.rate ∧ 0 ≤ stat.rate ∧ stat.rate ≤ 1
  gain : ∀ key cid m, dictGet m "content_id" = .str cid →
    segmentGain pf m (s.segmentJson numberText key) =
      .ok (affinityMax * ((s.place key (.str cid)).map (·.rate)).getD 0)
  /-- No place adds more than a tenth. -/
  gain_le : ∀ key m q, segmentGain pf m (s.segmentJson numberText key) = .ok q →
    0 ≤ q ∧ q ≤ affinityMax

/-- A share rounded to four places stays one. -/
theorem round4_bounds {q : ℚ} (hnonneg : 0 ≤ q) (hle : q ≤ 1) : 0 ≤ round4 q ∧ round4 q ≤ 1 := by
  have hlow : (0 : ℚ) ≤ roundHalfEven (q * 10000) := by
    exact_mod_cast roundHalfEven_nonneg (by linarith)
  have hhigh : (roundHalfEven (q * 10000) : ℚ) ≤ 10000 := by
    have h : roundHalfEven (q * 10000) ≤ (10000 : Int) :=
      roundHalfEven_le (by push_cast; linarith)
    exact_mod_cast h
  unfold round4
  constructor
  · linarith
  · linarith

/-- The rate of a place is a share. -/
theorem placeStat_rate (pf : Platform) (rows : List Json) (p : String × PyKey) :
    0 ≤ (placeStat pf rows p).rate ∧ (placeStat pf rows p).rate ≤ 1 := by
  have hle : ((savedPairs pf rows).count p : ℚ) ≤ (shownPairs pf rows).count p := by
    exact_mod_cast saved_le_shown pf rows p
  exact round4_bounds (by positivity) (div_le_one_of_le₀ hle (by positivity))

/-- A rate that is a share is read back as it was written. -/
theorem segmentRate_toJson (pf : Platform) {p : PlaceStat} (hnonneg : 0 ≤ p.rate) (hle : p.rate ≤ 1) :
    segmentRate pf p.toJson = some p.rate :=
  if_pos ⟨hnonneg, hle⟩

/-- What an entry of the file adds to a candidate. -/
theorem segmentGain_toJson (numberText : PyFloat → String) (e : SegmentEntry)
    {m : List (String × Json)} {cid : String} (hcid : dictGet m "content_id" = .str cid) :
    segmentGain pf m (e.toJson numberText) = .ok (if cid = "" then 0
      else affinityMax * (segmentRate pf
        (dictGet (e.places.map fun f => (f.1.text numberText, f.2.toJson)) cid)).getD 0) := by
  unfold SegmentEntry.toJson segmentGain
  dsimp only
  rw [hcid]
  -- a blank identifier gains nothing, wherever it is looked up
  by_cases hempty : cid = ""
  · subst hempty
    rfl
  · have htruthy : (Json.str cid).truthy = true := by simpa [Json.truthy] using hempty
    rw [htruthy, if_neg (by decide), if_neg hempty]
    rfl

/-- A written segment passes the check of its shape. -/
theorem hasPlaces_toJson (numberText : PyFloat → String) (e : SegmentEntry) :
    hasPlaces (e.toJson numberText) = true := by
  change (e.places.map fun f => (f.1.text numberText, f.2.toJson)).all (fun f => f.2.isDict) = true
  rw [List.all_map, List.all_eq_true]
  exact fun f _ => rfl

/-- The file passes the check, whatever was counted. -/
theorem segmentStats_jsonFields (numberText : PyFloat → String) (s : SegmentStats) :
    segmentStats (some (.obj (s.jsonFields numberText))) = s.jsonFields numberText := by
  have hsegments : ((s.jsonFields numberText).lookup "segments").getD (.obj []) =
      .obj (s.segments.map fun e => (e.1, e.2.toJson numberText)) := rfl
  have hall : (s.segments.map fun e => (e.1, e.2.toJson numberText)).all
      (fun e => hasPlaces e.2) = true := by
    simp [hasPlaces_toJson]
  rw [segmentStats, Option.bind_some, checkStats, hsegments]
  dsimp only
  rw [if_pos hall, Option.getD_some]

/-- The segment of a user is found in the written statistics. -/
theorem segmentForUser_jsonFields (pf : Platform) (numberText : PyFloat → String) (s : SegmentStats)
    (ageBand gender : Json) : segmentForUser pf (s.jsonFields numberText) ageBand gender =
      .ok (s.segmentJson numberText (userKey pf ageBand gender)) := by
  have hsegments : (dictGet (s.jsonFields numberText) "segments").orElse (.obj []) =
      .obj (s.segments.map fun e => (e.1, e.2.toJson numberText)) := by
    change (Json.obj (s.segments.map fun e => (e.1, e.2.toJson numberText))).orElse (.obj []) = _
    cases s.segments with
    | nil => rfl
    | cons e l => rfl
  rw [segmentForUser, hsegments, Json.get, dictGet, lookup_map_values, SegmentStats.segmentJson]

/-- What is shown are texts, none of them empty. -/
theorem text_of_shown {rows : List Json} {p : String × PyKey} (h : p ∈ shownPairs pf rows) :
    ∃ cid, p.2 = .str cid ∧ cid ≠ "" := by
  obtain ⟨i, hi, rfl⟩ := List.mem_map.mp h
  refine ⟨i.place, rfl, ?_⟩
  obtain ⟨row, -, hi⟩ := List.mem_flatMap.mp hi
  unfold impressionsOf at hi
  split at hi
  · obtain ⟨c, -, hc⟩ := List.mem_filterMap.mp hi
    -- only a candidate with a text that is not empty shows a place
    unfold impression? at hc
    split at hc
    · split at hc
      · cases hc
      · rename_i hne
        cases hc
        exact hne
    · cases hc
  · cases hi

section Counts

variable {rows : List Json} {minSupport : Int} {s : SegmentStats}

/-- A place that is listed was shown, and has its own counts. -/
theorem SegmentStats.Counts.shown (h : s.Counts pf rows minSupport) {key : String} {cid : PyKey}
    {stat : PlaceStat} (hstat : s.place key cid = some stat) :
    (key, cid) ∈ shownPairs pf rows ∧ stat = placeStat pf rows (key, cid) := by
  rw [h.place] at hstat
  split at hstat
  · rename_i hkept
    exact ⟨List.count_pos_iff.mp hkept.1, (Option.some.inj hstat).symm⟩
  · cases hstat

/-- The places of a segment are found in the file under their own texts. -/
theorem SegmentStats.Counts.lookup_places (h : s.Counts pf rows minSupport)
    (numberText : PyFloat → String) {key : String} {e : SegmentEntry}
    (he : s.segments.lookup key = some e) (cid : String) :
    (e.places.map fun f => (f.1.text numberText, f.2.toJson)).lookup cid =
      (e.places.lookup (.str cid)).map (·.toJson) := by
  obtain ⟨hnodup, -, -⟩ := h.entry (key, e) (mem_of_lookup he)
  have hkeys : ∀ f ∈ e.places, f.1.text numberText = (PyKey.str cid).text numberText →
      f.1 = .str cid := by
    intro f hf heq
    have hplace : s.place key f.1 = some f.2 := by
      rw [SegmentStats.place, he, Option.bind_some]
      exact (mem_iff_lookup hnodup).mp hf
    -- a number is never counted, so none takes the place of a text
    obtain ⟨text, htext, -⟩ := text_of_shown (h.shown hplace).1
    dsimp only at htext
    rw [htext] at heq ⊢
    exact congrArg _ heq
  exact lookup_map_of hkeys

/-- Its rate is a share. -/
theorem SegmentStats.Counts.rate_bounds (h : s.Counts pf rows minSupport) {key : String}
    {cid : PyKey} {stat : PlaceStat} (hstat : s.place key cid = some stat) :
    0 ≤ stat.rate ∧ stat.rate ≤ 1 := by
  obtain ⟨-, rfl⟩ := h.shown hstat
  exact placeStat_rate pf rows (key, cid)

/-- The gain read from the statistics is the rate of the place, or nothing. -/
theorem SegmentStats.Counts.gain (h : s.Counts pf rows minSupport) (numberText : PyFloat → String)
    (key cid : String) {m : List (String × Json)} (hcid : dictGet m "content_id" = .str cid) :
    segmentGain pf m (s.segmentJson numberText key) =
      .ok (affinityMax * ((s.place key (.str cid)).map (·.rate)).getD 0) := by
  rw [SegmentStats.segmentJson]
  cases he : s.segments.lookup key with
  | none =>
    -- the segment is not listed
    have hnone : s.place key (.str cid) = none := by
      rw [SegmentStats.place, he, Option.bind_none]
    rw [hnone]
    exact congrArg Except.ok (mul_zero affinityMax).symm
  | some e =>
    -- it is, and the place is looked up in it
    have hplace : s.place key (.str cid) = e.places.lookup (.str cid) := by
      rw [SegmentStats.place, he, Option.bind_some]
    rw [Option.map_some, Option.getD_some, segmentGain_toJson numberText e hcid, dictGet,
      h.lookup_places numberText he, ← hplace]
    cases hstat : s.place key (.str cid) with
    | none =>
      -- the place is not listed
      have hzero : affinityMax * (segmentRate pf .null).getD 0 = 0 := mul_zero affinityMax
      rw [Option.map_none, Option.getD_none, hzero, ite_self]
      exact congrArg Except.ok (mul_zero affinityMax).symm
    | some stat =>
      -- nothing is counted of a place without an identifier
      obtain ⟨text, htext, hne⟩ := text_of_shown (h.shown hstat).1
      cases htext
      obtain ⟨hnonneg, hle⟩ := h.rate_bounds hstat
      rw [if_neg hne, Option.map_some, Option.getD_some, segmentRate_toJson pf hnonneg hle]
      rfl

/-- What counts the sessions is served as it is. -/
theorem SegmentStats.Counts.served (h : s.Counts pf rows minSupport)
    (numberText : PyFloat → String) : s.Served pf numberText where
  loaded := segmentStats_jsonFields numberText s
  found := segmentForUser_jsonFields pf numberText s
  rate key cid stat hstat := by
    obtain ⟨hnonneg, hle⟩ := h.rate_bounds hstat
    exact ⟨segmentRate_toJson pf hnonneg hle, hnonneg, hle⟩
  gain key cid m hcid := h.gain numberText key cid hcid
  gain_le key m q hq := segmentGain_bounds hq

end Counts

/-- The statistics of any sessions count exactly what was shown and saved, in
    whatever order, and the service adds each rate's share of a tenth. -/
theorem build_correct (pf : Platform) (numberText : PyFloat → String) (rows : List Json)
    (minSupport : Int) (hrows : ∀ row ∈ rows, IsSession row) :
    ∃ s, build pf rows minSupport = .ok s ∧ s.Counts pf rows minSupport ∧ s.Served pf numberText ∧
      ∀ rows', Shuffled rows rows' → ∃ s', build pf rows' minSupport = .ok s' ∧ s.Same s' := by
  have hcounts := counts_tallies pf rows minSupport
  refine ⟨_, build_eq hrows minSupport, hcounts, hcounts.served numberText, fun rows' h => ?_⟩
  exact ⟨_, build_eq (h.isSession hrows) minSupport, hcounts.same (counts_tallies pf rows' minSupport) h⟩

/-- What passes the check has an object of segments, if any, each with its places. -/
theorem checkStats_eq_some {v : Json} {stats : List (String × Json)} (h : checkStats v = some stats) :
    v = .obj stats ∧ ∃ segments, (stats.lookup "segments").getD (.obj []) = .obj segments ∧
      ∀ e ∈ segments, hasPlaces e.2 = true := by
  unfold checkStats at h
  split at h
  · split at h
    · rename_i m segments hsegments
      split at h
      · rename_i hall
        cases h
        exact ⟨rfl, segments, hsegments, List.all_eq_true.mp hall⟩
      · cases h
    · cases h
  · cases h

/-- Counts read from a file are such that the ranking can look one kind of user up. -/
theorem statsLoaded_segmentStats {env : Env} {file : Option Json}
    (h : env.segmentStats = segmentStats file) : StatsLoaded env := by
  rw [StatsLoaded, h, segmentStats]
  cases hstats : file.bind checkStats with
  | none => exact ⟨[], rfl⟩
  | some stats =>
    obtain ⟨v, -, hv⟩ := Option.bind_eq_some_iff.mp hstats
    obtain ⟨-, segments, hsegments, -⟩ := checkStats_eq_some hv
    rw [Option.getD_some, dictGet]
    cases hlookup : stats.lookup "segments" with
    | none => exact ⟨[], rfl⟩
    | some w =>
      -- an object is itself or, when empty, the default
      rw [hlookup, Option.getD_some] at hsegments
      rw [Option.getD_some, hsegments]
      exact ⟨segments, by cases segments <;> rfl⟩

/-- A session that shows one place, and saves it or not. -/
def sampleSession (saved : Bool) : Json :=
  .obj [("l1_eligible", .bool true),
    ("user_segment", .obj [("age_band", .str "20s"), ("gender", .str "m")]),
    ("candidates", .arr [.obj [("content_id", .str "a"), ("saved", .bool saved)]])]

/-- The sample session is a session. -/
theorem isSession_sample (saved : Bool) : IsSession (sampleSession saved) where
  isDict := rfl
  user _ := rfl
  candidates _ := ⟨_, rfl⟩
  isCandidate c hc := by
    cases List.mem_singleton.mp hc
    exact ⟨rfl, fun _ => ⟨"a", rfl⟩⟩

example : (build samplePlatform [sampleSession true, sampleSession false] 2).toOption.map
    (·.place "20s|m" (.str "a")) = some (some ⟨2, 1, 1 / 2⟩) := by decide +kernel

/-- Two sample sessions, with a support of two, are counted as they should be. -/
theorem build_correct_sample :
    ∃ s, build samplePlatform [sampleSession true, sampleSession false] 2 = .ok s ∧
      s.Counts samplePlatform [sampleSession true, sampleSession false] 2 ∧
      s.Served samplePlatform samplePlatform.floatRepr ∧
      ∀ rows', Shuffled [sampleSession true, sampleSession false] rows' →
        ∃ s', build samplePlatform rows' 2 = .ok s' ∧ s.Same s' :=
  build_correct samplePlatform samplePlatform.floatRepr _ 2
    (List.forall_mem_cons.mpr ⟨isSession_sample true, List.forall_mem_singleton.mpr (isSession_sample false)⟩)

end MapServiceAgent.Native

import MapServiceAgent.ForStd.Except
import MapServiceAgent.Native.RecommendRequest
import MapServiceAgent.Native.SelectedPlaces

/-!
# The cleaners and the validators agree

`neutralize_tags` takes out exactly what the validators of the output fields
refuse, so a text that went through it is never refused, and one that would not
have been refused comes out as it was. No place is lost to its category or to a
time of visit.

## Key results

- `neutralizeTags_eq_self_iff`: the cleaner changes what the validator refuses
- `placeFromCandidate_withTexts`: category and time have no part in whether a
  candidate makes a place
- `cleaners_agree`: the whole of it
-/

namespace MapServiceAgent.Native

variable {pf : Platform}

/-! ### One text -/

/-- A text is clean when none of its characters is a control or stands for a tag. -/
theorem cleanText_iff {s : String} : cleanText s = true ↔
    ∀ c ∈ s.toList, isControl c = false ∧ isTagChar c = false := by
  rw [cleanText, Bool.not_eq_true', List.any_eq_false]
  simp only [isForbidden_eq, Bool.or_eq_true, not_or, Bool.not_eq_true]
  exact forall₂_congr fun _ _ => and_comm

/-- The cleaner only takes characters out, or puts one in the place of one. -/
theorem length_neutralizeTags_le (s : String) :
    (neutralizeTags s).toList.length ≤ s.toList.length := by
  rw [neutralizeTags, String.toList_ofList, List.length_map]
  exact List.length_filter_le _ _

/-- A clean text is left as it is. -/
theorem neutralizeTags_of_cleanText {s : String} (h : cleanText s = true) :
    neutralizeTags s = s := by
  rw [cleanText_iff] at h
  -- no control to remove
  have hfilter : (s.toList.filter fun c => !isControl c) = s.toList :=
    List.filter_eq_self.mpr fun c hc => by rw [(h c hc).1, Bool.not_false]
  -- and no bracket to replace
  have hmap : (s.toList.map fun c => if isTagChar c then tagReplacement else c) = s.toList := by
    rw [List.map_congr_left fun c hc => if_neg (by rw [(h c hc).2]; decide), List.map_id']
  rw [neutralizeTags, hfilter, hmap, String.ofList_toList]

/-- The cleaner changes what the validator refuses, and nothing else. -/
theorem neutralizeTags_eq_self_iff {s : String} : neutralizeTags s = s ↔ cleanText s = true := by
  constructor
  · intro h
    rw [← h]
    exact cleanText_neutralizeTags s
  · exact neutralizeTags_of_cleanText

/-! ### Candidates -/

/-- The fields with a category and a time of visit put in. -/
def PlaceFields.withTexts (f : PlaceFields) (category time : String) : PlaceFields :=
  { f with category := some category, recommendedVisitTime := time }

/-- The fields without either. -/
def PlaceFields.bare (f : PlaceFields) : PlaceFields :=
  { f with category := none, recommendedVisitTime := "" }

/-- Clean texts have no part in the check of the schema. -/
theorem PlaceFields.valid_withTexts (f : PlaceFields) {category time : String}
    (hcategory : cleanText category = true) (htime : cleanText time = true)
    (hlength : lengthIn 0 50 time = true) : (f.withTexts category time).valid = f.bare.valid := by
  have hempty : cleanText "" = true ∧ lengthIn 0 50 "" = true := by decide
  unfold PlaceFields.valid PlaceFields.withTexts PlaceFields.bare
  simp only [cleanOptional, Option.all_some, Option.all_none, hcategory, htime, hlength, hempty]

/-- Clean texts of the right length decide nothing about the other fields. -/
theorem Place.build_withTexts (f : PlaceFields) {category time : String}
    (hcategory : cleanText category = true) (htime : cleanText time = true)
    (hlength : lengthIn 0 50 time = true) :
    (·.toPlaceFields) <$> Place.build (f.withTexts category time) =
      (·.toPlaceFields.withTexts category time) <$> Place.build f.bare := by
  have hvalid := f.valid_withTexts hcategory htime hlength
  unfold Place.build
  by_cases h : f.bare.valid = true
  · -- the schema takes the place, with the texts or without
    rw [dif_pos h, dif_pos (hvalid.trans h)]
    rfl
  · rw [dif_neg h, dif_neg (fun h' => h (hvalid.symm.trans h'))]
    rfl

/-- The fields of a candidate with a category, from those without. -/
theorem candidateFields_withTexts (i : Int) (m : List (String × Json))
    (cid src s time : String) (day : Int) :
    candidateFields pf i (dictSet m "category" (.str s)) cid src time day =
      (·.withTexts (neutralizeTags s) (neutralizeTags time)) <$>
        candidateFields pf i (dictSet m "category" .null) cid src "" day := by
  unfold candidateFields
  simp only [dictGet_dictSet_self, dictGet_dictSet_ne, dictItem_dictSet_ne, ne_eq, map_bind,
    map_pure, ok_bind, neutralizeTagsJson, optionalStr, String.reduceEq, not_false_eq_true,
    PlaceFields.withTexts]

/-- A candidate without a category makes fields without one. -/
theorem candidateFields_bare (i : Int) (m : List (String × Json)) (cid src : String) (day : Int) :
    candidateFields pf i (dictSet m "category" .null) cid src "" day =
      PlaceFields.bare <$> candidateFields pf i (dictSet m "category" .null) cid src "" day := by
  have hempty : neutralizeTags "" = "" := by decide
  unfold candidateFields
  simp only [dictGet_dictSet_self, dictGet_dictSet_ne, dictItem_dictSet_ne, ne_eq, map_bind,
    map_pure, ok_bind, neutralizeTagsJson, optionalStr, String.reduceEq, not_false_eq_true, hempty,
    PlaceFields.bare]

/-- Category and time of visit have no part in whether a candidate makes a
    place: the place it makes without them gets them. -/
theorem placeFromCandidate_withTexts (i : Int) (m : List (String × Json)) (s : String)
    {time : String} (htime : (lengthIn 0 50 time && cleanText time) = true) (day : Int) :
    (·.toPlaceFields) <$> placeFromCandidate pf i (.obj (dictSet m "category" (.str s))) time day =
      (·.toPlaceFields.withTexts (neutralizeTags s) time) <$>
        placeFromCandidate pf i (.obj (dictSet m "category" .null)) "" day := by
  rw [Bool.and_eq_true] at htime
  unfold placeFromCandidate
  simp only [dictGet_dictSet_ne, ne_eq, String.reduceEq, not_false_eq_true]
  split
  · split
    · rfl
    · -- with an identifier it is the source that decides
      rw [map_bind, map_bind]
      congr 1
      funext _
      split
      · split
        · -- the schema sees the texts last
          rw [candidateFields_withTexts, candidateFields_bare, map_bind, map_bind, bind_map_left,
            bind_map_left, bind_map_left, neutralizeTags_of_cleanText htime.2]
          congr 1
          funext f
          exact Place.build_withTexts f (cleanText_neutralizeTags s) htime.2 htime.1
        · rfl
      · rfl
  · rfl

/-! ### Places the user picked -/

/-- An optional text that was checked is clean, if it is there. -/
theorem cleanOptional_of_all {o : Option String} {p : String → Bool}
    (h : o.all (fun s => p s && cleanText s) = true) : cleanOptional o = true := by
  cases o with
  | none => rfl
  | some s =>
    rw [Option.all_some, Bool.and_eq_true] at h
    exact h.2

/-- A place the schema of the request accepts passes the one of the answer. -/
theorem returns_build_of_selected (p : SelectedPlace) (i : Int) : Returns (Place.build {
      placeId := i, day := p.day, name := p.name, address := p.address, lat := p.lat, lng := p.lng
      recommendedVisitTime := "", contentId := p.contentId, source := none
      category := p.category, categoryGroupCode := none, phone := none, placeUrl := none
      crsDstncKm := none, crsTotalMin := none, crsLevel := none, brdDiv := none, gpxUrl := none
      routeIdx := none, grounded := false }) := by
  -- what the request was checked for is what the place is checked for
  have hname := p.name_valid
  have haddress := p.address_valid
  have hcontentId := cleanOptional_of_all p.contentId_valid
  have hcategory := cleanOptional_of_all p.category_valid
  have hempty : cleanText "" = true ∧ lengthIn 0 50 "" = true := by decide
  rw [Bool.and_eq_true] at hname haddress
  unfold Place.build
  rw [dif_pos]
  · exact returns_ok _
  · have hnone : cleanOptional none = true := rfl
    simp only [PlaceFields.valid, hname, haddress, hempty, hcontentId, hcategory, hnone,
      p.lat_valid, p.lng_valid, p.one_le_day, decide_true, Bool.and_true]

/-- The places a request gives can always be built. -/
theorem returns_placesFromSelected (selected : List SelectedPlace) :
    Returns (placesFromSelected selected) := by
  rw [placesFromSelected, returns_mapM]
  rintro ⟨p, i⟩ -
  exact returns_build_of_selected p i

/-! ### The cleaners and the validators -/

/-- What the cleaner makes of a text is accepted, no longer, and the text itself
    just when that was accepted; so neither the category of a candidate nor the
    time of a selection keeps it from making a place, and every place the user
    picked makes one. -/
theorem cleaners_agree :
    (∀ s, cleanText (neutralizeTags s) = true ∧
      (neutralizeTags s).toList.length ≤ s.toList.length ∧
      (neutralizeTags s = s ↔ cleanText s = true)) ∧
    (∀ (pf : Platform) (i : Int) (m : List (String × Json)) (s : String) (sel : PlaceSelection)
      (day : Int),
      (·.toPlaceFields) <$> placeFromCandidate pf i (.obj (dictSet m "category" (.str s)))
          sel.recommendedVisitTime day =
        (·.toPlaceFields.withTexts (neutralizeTags s) sel.recommendedVisitTime) <$>
          placeFromCandidate pf i (.obj (dictSet m "category" .null)) "" day) ∧
    ∀ selected, Returns (placesFromSelected selected) := by
  refine ⟨?_, ?_, returns_placesFromSelected⟩
  · intro s
    -- every string
    exact ⟨cleanText_neutralizeTags s, length_neutralizeTags_le s, neutralizeTags_eq_self_iff⟩
  · intro pf i m s sel day
    -- every candidate and selection
    exact placeFromCandidate_withTexts i m s sel.time_valid day

end MapServiceAgent.Native

import MapServiceAgent.Spec.AgentGraphCorrect
import MapServiceAgent.Spec.SelectionCorrect

/-!
# The places of a selection

Read once, the model's answer is a list of selections of which some do not
count: those of a day outside the trip, those of a candidate there is none of,
and those of a candidate an earlier one took. The others are put in the order
of their days, each makes the place of its candidate where it can, and the
places are numbered when all of that is done. `_select_places` does it in one
pass, with a set of the indices seen and a number that waits for a place.

## Key results

- `chosenSelections_eq`: the loop keeps the first selection of each candidate
- `placesFromSelections_eq`: numbering along the way is numbering at the end
- `selection_stored`: what `_select_places` stores
-/

namespace MapServiceAgent.Native

variable {env : Env} {pf : Platform} {candidates : List Json}

/-! ### Reading the answer once -/

/-- A selection of a day of the trip and of a candidate there is. -/
def InRange (days : Int) (count : Nat) (sel : PlaceSelection) : Prop :=
  (1 ≤ sel.day ∧ sel.day ≤ days) ∧ 0 ≤ sel.index ∧ sel.index < count

instance (days : Int) (count : Nat) : DecidablePred (InRange days count) :=
  fun _ => inferInstanceAs (Decidable (_ ∧ _))

/-- The selections that count: in range, and the first of their candidate. -/
def countedSelections (days : Int) (count : Nat) (selections : List PlaceSelection) :
    List PlaceSelection :=
  firstsBy (·.index) (selections.filter (InRange days count ·))

/-- The place a selection makes of its candidate, before it is numbered. -/
def placeOfSelection (pf : Platform) (candidates : List Json) (sel : PlaceSelection) : Option Place :=
  candidates[sel.index.toNat]?.bind fun c =>
    (placeFromCandidate pf 0 c sel.recommendedVisitTime sel.day).toOption

/-- The places of an answer. -/
def selectedPlaces (pf : Platform) (days : Int) (candidates : List Json)
    (selections : List PlaceSelection) : List Place :=
  renumber ((sortedBy (·.day) (countedSelections days candidates.length selections)).filterMap
    (placeOfSelection pf candidates))

/-! ### The selections that count -/

/-- The loop takes the first selection of each candidate it has not seen yet. -/
theorem chosenSelections_eq (days : Int) (count : Nat) (seen : List Int)
    (selections : List PlaceSelection) :
    chosenSelections days count seen selections =
      (countedSelections days count selections).filter (·.index ∉ seen) := by
  unfold countedSelections
  -- the candidates already seen are filtered out of the firsts at the end
  induction selections generalizing seen with
  | nil => rfl
  | cons sel rest ih =>
    unfold chosenSelections
    by_cases hrange : InRange days count sel
    · rw [List.filter_cons_of_pos (by simpa using hrange), firstsBy]
      obtain ⟨⟨-, hday⟩, -, hcount⟩ := hrange
      by_cases hseen : sel.index ∈ seen
      · -- the candidate was taken before: the selection is passed over on both sides
        rw [if_neg (by simp [hseen]), List.filter_cons_of_neg (by simpa using hseen), ih,
          List.filter_filter]
        apply List.filter_congr
        intro other _
        by_cases hother : other.index ∈ seen
        · simp [hother]
        · have hne : other.index ≠ sel.index := fun h => hother (h ▸ hseen)
          simp [hother, hne]
      · -- the first of its candidate: taken, and seen from here on
        rw [if_pos ⟨hday, hcount, hseen⟩, List.filter_cons_of_pos (by simpa using hseen), ih,
          List.filter_filter]
        congr 1
        apply List.filter_congr
        intro other _
        by_cases hother : other.index = sel.index <;> simp [hother, List.mem_cons]
    · -- out of range: the two lower bounds are the schema's own
      rw [List.filter_cons_of_neg (by simpa using hrange), if_neg, ih]
      rintro ⟨hday, hcount, -⟩
      exact hrange ⟨⟨sel.one_le_day, hday⟩, sel.index_nonneg, hcount⟩

/-- A selection that counts is in range. -/
theorem mem_countedSelections {days : Int} {count : Nat} {selections : List PlaceSelection}
    {sel : PlaceSelection} (h : sel ∈ countedSelections days count selections) :
    InRange days count sel := by
  have h := (firstsBy_sublist _ _).subset h
  simpa using (List.mem_filter.mp h).2

/-- Those that count are some of the selections, in their order. -/
theorem countedSelections_sublist (days : Int) (count : Nat) (selections : List PlaceSelection) :
    (countedSelections days count selections).Sublist selections :=
  (firstsBy_sublist _ _).trans List.filter_sublist

/-! ### Numbering -/

/-- The number of a place decides nothing about its other fields. -/
theorem candidateFields_withId (i : Int) (m : List (String × Json)) (cid src time : String)
    (day : Int) : candidateFields pf i m cid src time day =
      (fun f : PlaceFields => { f with placeId := i }) <$>
        candidateFields pf 0 m cid src time day := by
  unfold candidateFields
  simp only [map_bind, map_pure]

/-- Nor about whether it is built. -/
theorem Place.build_withId (i : Int) (f : PlaceFields) :
    Place.build { f with placeId := i } = (·.withId i) <$> Place.build f := by
  unfold Place.build
  by_cases h : f.valid = true
  · rw [dif_pos h, dif_pos (show PlaceFields.valid { f with placeId := i } = true from h)]
    rfl
  · rw [dif_neg h, dif_neg (show ¬ PlaceFields.valid { f with placeId := i } = true from h)]
    rfl

/-- The number of a place has no part in whether there is one, or in the rest of it. -/
theorem placeFromCandidate_withId (i : Int) (c : Json) (time : String) (day : Int) :
    placeFromCandidate pf i c time day = (·.withId i) <$> placeFromCandidate pf 0 c time day := by
  unfold placeFromCandidate
  split
  · split
    · split
      · rfl
      · -- only the fields know the number; what is read before them does not
        rw [map_bind]
        congr 1
        funext _
        split
        · split
          · rw [candidateFields_withId, map_bind, bind_map_left]
            congr 1
            funext f
            exact Place.build_withId i f
          · rfl
        · rfl
    · rfl
  · rfl

/-! ### Candidates that make no place -/

/-- The coordinates of a candidate that are integers fit a double. -/
def CoordsFit (c : Json) : Prop :=
  ∀ m, c = .obj m → ∀ k ∈ ["lat", "lng"], ∀ i, dictGet m k = .int i → i.natAbs < doubleLimit.natAbs

/-- Whatever it raises, the candidate is skipped for it. -/
abbrev Skipping {α : Type} (x : Except PyExn α) : Prop := RaisesOnly (skipsCandidate · = true) x

/-- An optional text raises only what skips a candidate. -/
theorem skipping_optionalStr (v : Json) : Skipping (optionalStr v) := by
  unfold optionalStr
  split <;> simp [skipsCandidate, PyExn.validationError, PyExn.isValueError]

/-- So does an optional field of any kind. -/
theorem skipping_optionalBy {α : Type} (f : Json → Option α) (v : Json) :
    Skipping (optionalBy f v) := by
  unfold optionalBy
  split
  · simp
  · split <;> simp [skipsCandidate, PyExn.validationError, PyExn.isValueError]

/-- So does a required text. -/
theorem skipping_requiredStr (v : Json) : Skipping (requiredStr v) := by
  unfold requiredStr
  split <;> simp [skipsCandidate, PyExn.validationError, PyExn.isValueError]

/-- And a text that is cut. -/
theorem skipping_cutText (n : Nat) (v : Json) : Skipping (cutText n v) := by
  unfold cutText
  split <;> simp [skipsCandidate]

/-- Reading a coordinate that fits a double. -/
theorem skipping_coord {m : List (String × Json)} (hm : CoordsFit (.obj m)) {k : String}
    (hk : k ∈ ["lat", "lng"]) {v : Json} (hv : dictItem m k = .ok v) : Skipping (pyFloat pf v) := by
  rw [← dictGet_of_dictItem hv]
  unfold pyFloat
  split
  · simp
  · -- an integer is the one coordinate that could overflow
    rename_i i hi
    rw [floatOfInt, if_pos (hm m rfl k hk i hi)]
    simp
  · simp
  · split <;> simp [skipsCandidate, PyExn.isValueError]
  · simp [skipsCandidate]

/-- Reading a candidate whose coordinates fit raises only what skips it. -/
theorem skipping_candidateFields {m : List (String × Json)} (hm : CoordsFit (.obj m)) (i : Int)
    (cid src time : String) (day : Int) : Skipping (candidateFields pf i m cid src time day) := by
  have hitem : ∀ k, Skipping (dictItem m k) := by
    intro k
    unfold dictItem
    split <;> simp [skipsCandidate]
  unfold candidateFields
  apply (skipping_cutText _ _).bind
  intro name _
  apply (skipping_cutText _ _).bind
  intro address _
  apply (hitem "lat").bind
  intro lat hlat
  apply (skipping_coord hm (by decide) hlat).bind
  intro _ _
  apply (hitem "lng").bind
  intro lng hlng
  apply (skipping_coord hm (by decide) hlng).bind
  intro _ _
  -- what is left are the schema's own readings
  repeat'
    first
    | exact raisesOnly_ok _
    | refine (skipping_requiredStr _).bind fun _ _ => ?_
    | refine (skipping_optionalStr _).bind fun _ _ => ?_
    | refine (skipping_optionalBy _ _).bind fun _ _ => ?_

/-- A candidate with such coordinates is a place or is skipped. -/
theorem skipping_placeFromCandidate {c : Json} (hc : CoordsFit c) (i : Int) (time : String)
    (day : Int) : Skipping (placeFromCandidate pf i c time day) := by
  unfold placeFromCandidate
  split
  · rename_i m
    split
    · split
      · simp [skipsCandidate, PyExn.isValueError]
      · -- a source that cannot be hashed is a `TypeError`, skipped as well
        apply RaisesOnly.bind
        · unfold Json.key
          split <;> simp [skipsCandidate]
        · intro _ _
          split
          · split
            · apply (skipping_candidateFields hc _ _ _ _ _).bind
              intro f _
              -- what the schema refuses is skipped
              unfold Place.build
              split <;> simp [skipsCandidate, PyExn.validationError, PyExn.isValueError]
            · simp [skipsCandidate, PyExn.isValueError]
          · simp [skipsCandidate, PyExn.isValueError]
    · simp [skipsCandidate, PyExn.isValueError]
  · simp [skipsCandidate]

/-- Numbering along the way is numbering at the end. -/
theorem placesFromSelections_eq (hfit : ∀ c ∈ candidates, CoordsFit c)
    {selections : List PlaceSelection}
    (hrange : ∀ sel ∈ selections, 0 ≤ sel.index ∧ sel.index < candidates.length) (n : Nat) :
    placesFromSelections pf candidates n selections =
      .ok (((selections.filterMap (placeOfSelection pf candidates)).zipIdx n).map
        fun q => q.1.withId q.2) := by
  induction selections generalizing n with
  | nil => rfl
  | cons sel rest ih =>
    have hrest := fun n => ih (fun s hs => hrange s (List.mem_cons_of_mem _ hs)) n
    obtain ⟨hpos, hlt⟩ := hrange sel List.mem_cons_self
    have hindex : sel.index.toNat < candidates.length := by omega
    have hget := List.getElem?_eq_getElem hindex
    have hplace : placeOfSelection pf candidates sel =
        (placeFromCandidate pf 0 candidates[sel.index.toNat] sel.recommendedVisitTime
          sel.day).toOption := by
      rw [placeOfSelection, hget]
      rfl
    rw [placesFromSelections, hget]
    dsimp only
    rw [placeFromCandidate_withId]
    cases hmade : placeFromCandidate pf 0 candidates[sel.index.toNat] sel.recommendedVisitTime
      sel.day with
    | ok p =>
      -- a place takes the next number
      rw [List.filterMap_cons_some (by rw [hplace, hmade]; rfl), List.zipIdx_cons, List.map_cons]
      exact bind_of_eq_ok (hrest (n + 1)) _
    | error e =>
      -- a candidate that makes no place uses up no number
      have hskip : skipsCandidate e = true :=
        skipping_placeFromCandidate (hfit _ (List.getElem_mem hindex)) 0 _ _ e hmade
      rw [List.filterMap_cons_none (by rw [hplace, hmade]; rfl)]
      exact (if_pos hskip).trans (hrest n)

/-! ### What is stored -/

/-- The selected places are numbered from 0 on. -/
theorem selectedPlaces_ids (days : Int) (selections : List PlaceSelection) :
    (selectedPlaces pf days candidates selections).map (·.placeId) =
      (List.range (selectedPlaces pf days candidates selections).length).map Int.ofNat := by
  unfold selectedPlaces
  rw [renumber_ids, renumber, List.length_map, List.length_zipIdx, List.range_eq_range']

/-- The place is the one the selection makes of its candidate. -/
def Carries (pf : Platform) (candidates : List Json) (sel : PlaceSelection) (p : Place) : Prop :=
  ∃ c, candidates[sel.index.toNat]? = some c ∧
    placeFromCandidate pf p.placeId c sel.recommendedVisitTime sel.day = .ok p

/-- A place made of a selection carries it, whatever its number. -/
theorem carries_of_placeOfSelection {sel : PlaceSelection} {p : Place}
    (h : placeOfSelection pf candidates sel = some p) (i : Int) :
    Carries pf candidates sel (p.withId i) := by
  unfold placeOfSelection at h
  obtain ⟨c, hc, h⟩ := Option.bind_eq_some_iff.mp h
  refine ⟨c, hc, ?_⟩
  -- a selection that carries a place made one
  cases hplace : placeFromCandidate pf 0 c sel.recommendedVisitTime sel.day with
  | error e =>
    rw [hplace] at h
    cases h
  | ok q =>
    rw [hplace] at h
    cases h
    rw [placeFromCandidate_withId, hplace]
    rfl

/-- A place is on the day it was selected for. -/
theorem Carries.day_eq {sel : PlaceSelection} {p : Place} (h : Carries pf candidates sel p) :
    p.day = sel.day := by
  obtain ⟨c, -, hplace⟩ := h
  exact (placeFromCandidate_backs hplace).2.1

variable (pf candidates) in
/-- The places of an answer correspond, in their order, to the counted
    selections that make one. -/
theorem selectedPlaces_carry (days : Int) (selections : List PlaceSelection) :
    ∃ used, used.Sublist (sortedBy (·.day) (countedSelections days candidates.length selections)) ∧
      List.Forall₂ (Carries pf candidates) used
        (selectedPlaces pf days candidates selections) := by
  unfold selectedPlaces renumber
  generalize sortedBy (fun sel : PlaceSelection => sel.day)
    (countedSelections days candidates.length selections) = counted
  -- the first number plays no part
  generalize 0 = n
  induction counted generalizing n with
  | nil => exact ⟨[], .slnil, .nil⟩
  | cons sel rest ih =>
    cases hplace : placeOfSelection pf candidates sel with
    | none =>
      obtain ⟨used, hsub, hcarry⟩ := ih n
      rw [List.filterMap_cons_none hplace]
      exact ⟨used, hsub.cons _, hcarry⟩
    | some p =>
      obtain ⟨used, hsub, hcarry⟩ := ih (n + 1)
      rw [List.filterMap_cons_some hplace, List.zipIdx_cons, List.map_cons]
      exact ⟨sel :: used, hsub.cons_cons _, .cons (carries_of_placeOfSelection hplace _) hcarry⟩

/-- The model answered the job's selection call with these selections. -/
def SelectionAnswered (env : Env) (candidates : List Json) (j : Job)
    (selections : List PlaceSelection) (j' : Job) : Prop :=
  ∃ reviews s system prompt,
    enrichWithReviews env candidates j.state = .ok (reviews, s) ∧
    buildSelectionPrompt env.platform s.request (s.weather.getD (.obj [])) candidates reviews
      s.plan = .ok (system, prompt) ∧
    callStructured env.gemini.selection .placesSelection env.settings.geminiMaxCallsPerRequest
      system prompt { j with state := s } = (.ok ⟨selections⟩, j')

/-- What `_select_places` does with an answer. -/
def storeSelected (places : List Place) (s : AgentState) : AgentState :=
  if places = [] then
    s.fail "insufficient verified places: selection returned empty" "selection_invalid"
  else { s with places := some places }

/-- Taking a selection stores the places made of it. -/
theorem takeSelection_eq (hfit : ∀ c ∈ candidates, CoordsFit c) (selections : List PlaceSelection)
    (s : AgentState) : takeSelection env candidates selections s =
      .ok (storeSelected (selectedPlaces env.platform (numDays s.request) candidates selections)
        s) := by
  -- what is counted names candidates that there are
  have hrange : ∀ sel ∈ sortedBy (·.day)
      (countedSelections (numDays s.request) candidates.length selections),
      0 ≤ sel.index ∧ sel.index < candidates.length := by
    intro sel hsel
    exact (mem_countedSelections ((mem_sortedBy _ _ _).mp hsel)).2
  have hplaces : placesFromSelections env.platform candidates 0
      (sortedBy (·.day) (chosenSelections (numDays s.request) candidates.length [] selections)) =
      .ok (selectedPlaces env.platform (numDays s.request) candidates selections) := by
    rw [chosenSelections_eq, List.filter_eq_self.mpr (by simp),
      placesFromSelections_eq hfit hrange]
    rfl
  unfold takeSelection storeSelected
  dsimp only
  rw [bind_of_eq_ok hplaces]
  split <;> rfl

/-- Answered, the model's selection is stored. -/
theorem selectPlaces_answered (hfit : ∀ c ∈ candidates, CoordsFit c) {j j' : Job}
    {selections : List PlaceSelection} (h : SelectionAnswered env candidates j selections j') :
    selectPlaces env candidates j = (.ok (), { j' with
      state := storeSelected (selectedPlaces env.platform (numDays j.state.request) candidates
        selections) j'.state }) := by
  obtain ⟨reviews, s, system, prompt, henrich, hprompt, hanswer⟩ := h
  -- neither the reviews nor the call touch the request
  have hrequest : j'.state.request = j.state.request := by
    rw [callStructured_frame hanswer, enrichWithReviews_frame henrich]
  unfold selectPlaces
  rw [henrich]
  dsimp only
  rw [hprompt]
  dsimp only
  rw [hanswer]
  dsimp only
  rw [JobM.ofState, takeSelection_eq hfit, hrequest]

/-- What `_select_places` stores of an answer: the places of the counted
    selections, in the order of their days and numbered from 0. -/
theorem selection_stored (env : Env) (candidates : List Json) (hfit : ∀ c ∈ candidates, CoordsFit c)
    (j j' : Job) (selections : List PlaceSelection)
    (h : SelectionAnswered env candidates j selections j') :
    let places := selectedPlaces env.platform (numDays j.state.request) candidates selections
    selectPlaces env candidates j = (.ok (), { j' with state := storeSelected places j'.state }) ∧
    places.map (·.placeId) = (List.range places.length).map Int.ofNat ∧
    places.Pairwise (fun p q => p.day ≤ q.day) ∧
    ∃ used, used.Sublist (sortedBy (·.day)
        (countedSelections (numDays j.state.request) candidates.length selections)) ∧
      (used.map (·.index)).Nodup ∧
      (∀ d, (used.filter fun sel => sel.day = d).Sublist selections) ∧
      List.Forall₂ (fun sel p => Carries env.platform candidates sel p ∧ p.day = sel.day)
        used places := by
  intro places
  obtain ⟨used, hsub, hcarry⟩ :=
    selectedPlaces_carry env.platform candidates (numDays j.state.request) selections
  have hcounted := countedSelections_sublist (numDays j.state.request) candidates.length selections
  have hordered : used.Pairwise fun a b => a.day ≤ b.day := (sortedBy_pairwise _ _).sublist hsub
  have hdays : List.Forall₂ (fun sel p => Carries env.platform candidates sel p ∧ p.day = sel.day)
      used places := hcarry.imp fun sel p h => ⟨h, h.day_eq⟩
  refine ⟨selectPlaces_answered hfit h, selectedPlaces_ids _ _, ?_, used, hsub, ?_, fun d => ?_,
    hdays⟩
  · -- the days are those of the sorted selections
    apply pairwise_of_forall₂ hdays ?_ hordered
    intro a b p q hp hq hle
    rw [hp.2, hq.2]
    exact hle
  · -- no candidate twice: the counted selections are firsts
    exact (hsub.map _).nodup
      (((sortedBy_perm _ _).map _).nodup_iff.mpr (firstsBy_nodup _ _))
  · -- a stable sort leaves the selections of one day in the model's order
    have hday := hsub.filter fun sel => sel.day = d
    rw [sortedBy_filter_eq] at hday
    exact (hday.trans List.filter_sublist).trans hcounted

/-- The model picks two candidates, the first of which is no object: the second
    is stored, and numbered 0. -/
theorem selection_stored_sample : ∃ (j' : Job) (places : List Place),
    selectPlaces sampleEnv [.null, sampleCandidate "b"] (Job.start "j" (sampleTrip .init)) =
      (.ok (), { j' with state := storeSelected places j'.state }) ∧
    places.map (fun p => (p.placeId, p.contentId)) = [(0, some "b")] := by
  -- one candidate is no object, the other has floats
  have hfit : ∀ c ∈ [.null, sampleCandidate "b"], CoordsFit c := by
    intro c hc m hm k hk i hi
    rcases List.mem_cons.mp hc with rfl | hc
    · cases hm
    · cases List.mem_singleton.mp hc
      cases hm
      rcases List.mem_cons.mp hk with rfl | hk
      · cases hi
      · cases List.mem_singleton.mp hk
        cases hi
  exact ⟨_, _, (selection_stored sampleEnv _ hfit (Job.start "j" (sampleTrip .init)) _ _
    ⟨[], _, _, _, rfl, rfl, rfl⟩).1, by decide +kernel⟩

end MapServiceAgent.Native

import MapServiceAgent.ForStd.Except
import MapServiceAgent.Native.SelectionNodes

/-!
# Where a place comes from

A place is made of a candidate and carries that candidate's values, whoever
asked for it.

## Key results

- `placeFromCandidate_backs`: the fields of a place are its candidate's
- `verifyFrom_verified`: a verified list answers the picked places one by one
- `placesFromSelections_made`: the places of a selection, in its order
-/

namespace MapServiceAgent.Native

variable {pf : Platform} {env : Env}

/-- The candidate is what the place says about itself. -/
structure Backs (pf : Platform) (m : List (String × Json)) (p : Place) : Prop where
  contentId : ∃ cid, dictGet m "content_id" = .str cid ∧ p.contentId = some cid ∧
    isSourceId cid = true
  source : ∃ src, dictGet m "source" = .str src ∧ p.source = some src ∧ src ∈ verifiedSources
  lat : pyFloat pf (dictGet m "lat") = .ok p.lat
  lng : pyFloat pf (dictGet m "lng") = .ok p.lng
  name : ∃ name, dictGet m "name" = .str name ∧ p.name = takeChars 80 name
  /-- An empty value of any kind reads as the empty text. -/
  address : (∃ address, dictGet m "address" = .str address ∧ p.address = takeChars 200 address) ∨
    (dictGet m "address").truthy = false ∧ p.address = ""
  grounded : p.grounded = true

/-! ### One candidate -/

/-- A place that is built has the fields it was built from. -/
theorem Place.build_fields {f : PlaceFields} {p : Place} (h : Place.build f = .ok p) :
    p.toPlaceFields = f := by
  unfold Place.build at h
  split at h <;> cases h
  rfl

/-- A field that is required is read as one that is not. -/
theorem dictGet_of_dictItem {m : List (String × Json)} {k : String} {v : Json}
    (h : dictItem m k = .ok v) : dictGet m k = v := by
  unfold dictItem at h
  unfold dictGet
  split at h <;> cases h
  rename_i hlookup
  rw [hlookup, Option.getD_some]

/-- A required text is a string. -/
theorem requiredStr_ok {v : Json} {t : String} (h : requiredStr v = .ok t) : v = .str t := by
  unfold requiredStr at h
  split at h <;> cases h
  rfl

/-- A cut text is the start of a text, or empty for want of one. -/
theorem cutText_ok {n : Nat} {v : Json} {t : String} (h : cutText n v = .ok (.str t)) :
    (∃ s, v = .str s ∧ t = takeChars n s) ∨ v.truthy = false ∧ t = "" := by
  unfold cutText Json.orElse at h
  cases hv : v.truthy with
  | false =>
    -- what is falsy is cut as the empty text
    rw [hv] at h
    simp only [Bool.false_eq_true, if_false, Except.ok.injEq, Json.str.injEq] at h
    refine .inr ⟨rfl, h.symm.trans ?_⟩
    simp [takeChars]
  | true =>
    rw [hv] at h
    simp only [if_true] at h
    split at h
    · rename_i s
      cases h
      exact .inl ⟨s, rfl, rfl⟩
    all_goals cases h

/-- What the schema of a place makes of a candidate's fields. -/
theorem candidateFields_ok {i : Int} {m : List (String × Json)} {cid src time : String} {day : Int}
    {f : PlaceFields} (h : candidateFields pf i m cid src time day = .ok f) :
    f.placeId = i ∧ f.day = day ∧ f.contentId = some cid ∧ f.source = some src ∧
      f.grounded = true ∧ pyFloat pf (dictGet m "lat") = .ok f.lat ∧
      pyFloat pf (dictGet m "lng") = .ok f.lng ∧
      cutText 80 (dictGet m "name") = .ok (.str f.name) ∧
      cutText 200 (dictGet m "address") = .ok (.str f.address) := by
  unfold candidateFields at h
  -- name, address and coordinates are required
  obtain ⟨nameText, hname, h⟩ := bind_eq_ok.mp h
  obtain ⟨addressText, haddress, h⟩ := bind_eq_ok.mp h
  obtain ⟨latValue, hlatItem, h⟩ := bind_eq_ok.mp h
  obtain ⟨lat, hlat, h⟩ := bind_eq_ok.mp h
  obtain ⟨lngValue, hlngItem, h⟩ := bind_eq_ok.mp h
  obtain ⟨lng, hlng, h⟩ := bind_eq_ok.mp h
  obtain ⟨name, hnameStr, h⟩ := bind_eq_ok.mp h
  obtain ⟨address, haddressStr, h⟩ := bind_eq_ok.mp h
  -- the optional fields
  iterate 10 obtain ⟨_, -, h⟩ := bind_eq_ok.mp h
  cases h
  rw [requiredStr_ok hnameStr] at hname
  rw [requiredStr_ok haddressStr] at haddress
  rw [dictGet_of_dictItem hlatItem, dictGet_of_dictItem hlngItem]
  exact ⟨rfl, rfl, rfl, rfl, rfl, hlat, hlng, hname, haddress⟩

/-- The fields of a place are its candidate's; number and day are the caller's. -/
theorem placeFromCandidate_backs {i : Int} {c : Json} {time : String} {day : Int} {p : Place}
    (h : placeFromCandidate pf i c time day = .ok p) :
    p.placeId = i ∧ p.day = day ∧ ∃ m, c = .obj m ∧ Backs pf m p := by
  unfold placeFromCandidate at h
  split at h
  · rename_i m
    split at h
    · rename_i cid hcid
      split at h
      · cases h
      · obtain ⟨_, -, h⟩ := bind_eq_ok.mp h
        split at h
        · rename_i src hsrc
          split at h
          · -- all checks passed; the fields are read next
            rename_i hsource
            obtain ⟨f, hf, hbuild⟩ := bind_eq_ok.mp h
            obtain ⟨hid, hday, hcontent, hsrc', hgrounded, hlat, hlng, hname, haddress⟩ :=
              candidateFields_ok hf
            have hp := Place.build_fields hbuild
            subst hp
            refine ⟨hid, hday, m, rfl, ⟨cid, hcid, hcontent, hsource.2⟩, ⟨src, hsrc, hsrc', hsource.1⟩,
              hlat, hlng, ?_, cutText_ok haddress, hgrounded⟩
            rcases cutText_ok hname with hname | ⟨-, hempty⟩
            · exact hname
            · -- the schema refuses an empty name
              have hvalid := p.valid
              simp [PlaceFields.valid, hempty, lengthIn] at hvalid
          · cases h
        · cases h
    · cases h
  · cases h

/-! ### Picked places -/

/-- The match found is made from a candidate, and matches what was given. -/
theorem findMatch_some {i : Int} {given : SelectedPlace} {candidates : List Json} {p : Place}
    (h : findMatch pf i given candidates = .ok (some p)) :
    ∃ c ∈ candidates, placeFromCandidate pf i c "" given.day = .ok p ∧
      matchesGiven pf given p = true := by
  induction candidates with
  | nil => exact nomatch h
  | cons c cs ih =>
    rw [findMatch] at h
    -- a candidate that does not match leaves the search to the later ones
    have hlater : findMatch pf i given cs = .ok (some p) → ∃ c' ∈ c :: cs,
        placeFromCandidate pf i c' "" given.day = .ok p ∧ matchesGiven pf given p = true :=
      fun h => (ih h).imp fun _ h => ⟨List.mem_cons_of_mem _ h.1, h.2⟩
    split at h
    · rename_i place hplace
      split at h
      · -- the first one that matches is taken
        rename_i hmatch
        cases h
        exact ⟨c, List.mem_cons_self, hplace, hmatch⟩
      · exact hlater h
    · split at h
      · -- a candidate that is no place is passed over
        exact hlater h
      · exact nomatch h

/-- The place answers the `i`-th picked one: it is the first match among what
    the hub found under its name. -/
def Verified (env : Env) (req : AgentRequest) (i : Nat) (given : SelectedPlace) (p : Place) : Prop :=
  ∃ response candidates, searchSelected env req i given = .ok response ∧
    responsePlaces response = .ok candidates ∧
    findMatch env.platform i given candidates = .ok (some p)

/-- A verified list answers the picked places one by one. -/
theorem verifyFrom_verified {req : AgentRequest} {i : Nat} {given : List SelectedPlace}
    {places : List Place} (h : verifyFrom env req i given = .ok (some places)) :
    List.Forall₂ (fun g p => Verified env req g.2 g.1 p) (given.zipIdx i) places := by
  induction given generalizing i places with
  | nil =>
    cases h
    exact .nil
  | cons g rest ih =>
    rw [verifyFrom] at h
    obtain ⟨response, hresponse, h⟩ := bind_eq_ok.mp h
    obtain ⟨candidates, hcandidates, h⟩ := bind_eq_ok.mp h
    obtain ⟨found, hfound, h⟩ := bind_eq_ok.mp h
    split at h
    · exact nomatch h
    · -- one place not found leaves none at all
      rename_i place
      obtain ⟨others, hothers, h⟩ := bind_eq_ok.mp h
      split at h
      · exact nomatch h
      · cases h
        exact .cons ⟨response, candidates, hresponse, hcandidates, hfound⟩ (ih hothers)

/-- A verified place has the number, the day and the identity that was asked for. -/
theorem Verified.place {req : AgentRequest} {i : Nat} {given : SelectedPlace} {p : Place}
    (h : Verified env req i given p) :
    p.placeId = i ∧ p.day = given.day ∧ matchesGiven env.platform given p = true ∧
      ∃ m, Backs env.platform m p := by
  obtain ⟨response, candidates, -, -, hfound⟩ := h
  obtain ⟨c, -, hplace, hmatch⟩ := findMatch_some hfound
  obtain ⟨hid, hday, m, -, hbacks⟩ := placeFromCandidate_backs hplace
  exact ⟨hid, hday, hmatch, m, hbacks⟩

/-- The verified places are numbered in the order given. -/
theorem verified_ids {req : AgentRequest} {i : Nat} {given : List SelectedPlace}
    {places : List Place}
    (h : List.Forall₂ (fun g p => Verified env req g.2 g.1 p) (given.zipIdx i) places) :
    places.map (·.placeId) = (List.range' i given.length).map Int.ofNat := by
  induction given generalizing i places with
  | nil =>
    cases h
    rfl
  | cons g rest ih =>
    rw [List.zipIdx_cons] at h
    cases h with
    | cons hp hrest =>
      rw [List.map_cons, List.length_cons, List.range'_succ, List.map_cons, ih hrest, hp.place.1]
      rfl

/-- Each is on the day it was given for. -/
theorem verified_days {req : AgentRequest} {i : Nat} {given : List SelectedPlace}
    {places : List Place}
    (h : List.Forall₂ (fun g p => Verified env req g.2 g.1 p) (given.zipIdx i) places) :
    places.map (·.day) = given.map (·.day) := by
  induction given generalizing i places with
  | nil =>
    cases h
    rfl
  | cons g rest ih =>
    rw [List.zipIdx_cons] at h
    cases h with
    | cons hp hrest => rw [List.map_cons, List.map_cons, ih hrest, hp.place.2.1]

/-- The numbers counted up from any start are distinct. -/
theorem nodup_range'_ofNat (i n : Nat) : ((List.range' i n).map Int.ofNat).Nodup :=
  (List.nodup_range').map fun _ _ h => Int.ofNat.inj h

/-- No two verified places have one number. -/
theorem verified_ids_nodup {req : AgentRequest} {given : List SelectedPlace} {places : List Place}
    (h : List.Forall₂ (fun g p => Verified env req g.2 g.1 p) given.zipIdx places) :
    (places.map (·.placeId)).Nodup := by
  rw [verified_ids h]
  exact nodup_range'_ofNat _ _

/-! ### Selected candidates -/

/-- The place is made of the candidate the selection points at. -/
def MadeFrom (pf : Platform) (candidates : List Json) (sel : PlaceSelection) (p : Place) : Prop :=
  ∃ i c, candidates[sel.index.toNat]? = some c ∧
    placeFromCandidate pf i c sel.recommendedVisitTime sel.day = .ok p

/-- The places of a selection, in its order; some selections make none. -/
theorem placesFromSelections_made {candidates : List Json} {n : Nat}
    {selections : List PlaceSelection} {places : List Place}
    (h : placesFromSelections pf candidates n selections = .ok places) :
    (∃ used, used.Sublist selections ∧ List.Forall₂ (MadeFrom pf candidates) used places) ∧
      places.map (·.placeId) = (List.range' n places.length).map Int.ofNat := by
  induction selections generalizing n places with
  | nil =>
    cases h
    exact ⟨⟨[], .slnil, .nil⟩, rfl⟩
  | cons sel rest ih =>
    rw [placesFromSelections] at h
    split at h
    · exact nomatch h
    · rename_i c hc
      split at h
      · -- the candidate becomes a place
        rename_i p hp
        obtain ⟨others, hothers, h⟩ := bind_eq_ok.mp h
        cases h
        obtain ⟨⟨used, hsub, hmade⟩, hids⟩ := ih hothers
        refine ⟨⟨sel :: used, hsub.cons_cons _, .cons ⟨n, c, hc, hp⟩ hmade⟩, ?_⟩
        rw [List.map_cons, List.length_cons, List.range'_succ, List.map_cons, hids,
          (placeFromCandidate_backs hp).1]
        rfl
      · split at h
        · -- what is no place is skipped, and takes no number
          obtain ⟨⟨used, hsub, hmade⟩, hids⟩ := ih h
          exact ⟨⟨used, hsub.cons _, hmade⟩, hids⟩
        · exact nomatch h

end MapServiceAgent.Native

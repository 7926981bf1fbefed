import MapServiceAgent.Spec.BudgetCorrect
import MapServiceAgent.Spec.CandidatesCorrect
import MapServiceAgent.Spec.ItineraryCorrect

/-!
# Where published places come from

Each published place is backed by an object the hub returned in the same run.
The model points at candidates and the caller at places to look up; neither
writes what a place says about itself.

## Key results

- `Drafted.backed`: the places of every path are backed by the hub
- `published_backed`: so is every published place
-/

namespace MapServiceAgent.Native

variable {env : Env} {jobId : String} {req : AgentRequest} {s s' : AgentState}

/-! ### What the hub returned -/

/-- In the run of the job the hub returned this object as a candidate: for a
    theme, for a place the user picked, or when it filtered the candidates. -/
inductive HubReturned (env : Env) (jobId : String) (req : AgentRequest)
    (m : List (String × Json)) : Prop where
  | theme {s : AgentState} {kw : Option String} {i : Nat} {response : Json} :
      Comes env jobId req .searchPlaces s → s.failed = false →
      (kw, i) ∈ (themeKeywords req.theme).zipIdx →
      env.hub.searchPlaces (.theme i) req.province req.city (req.mobility.map Mobility.value) kw =
        .ok response →
      .obj m ∈ listedPlaces response → HubReturned env jobId req m
  | picked {n : AgentNode} {s : AgentState} {given : SelectedPlace} {i : Nat} {response : Json}
      {candidates : List Json} :
      n = .loadGivenPlaces ∨ n = .recommendPlaces → Comes env jobId req n s → s.failed = false →
      (given, i) ∈ req.given.zipIdx → searchSelected env req i given = .ok response →
      responsePlaces response = .ok candidates → .obj m ∈ candidates → HubReturned env jobId req m
  | filtered {s : AgentState} {filtered : List Json} :
      Comes env jobId req .rulesFilter s → s.failed = false → Filtered env s filtered →
      .obj m ∈ filtered → HubReturned env jobId req m

/-- A place that says what some object of the hub says. -/
def HubBacked (env : Env) (jobId : String) (req : AgentRequest) (p : Place) : Prop :=
  ∃ m, HubReturned env jobId req m ∧ Backs env.platform m p

/-! ### Candidates -/

/-- Merging the answers takes candidates over, and makes none. -/
theorem mergeUnseen_subset {seen : List PyKey} {rest out : List Json}
    (h : mergeUnseen seen rest = .ok out) : out ⊆ rest := by
  induction rest generalizing seen out with
  | nil =>
    cases h
    exact List.Subset.refl _
  | cons c rest ih =>
    -- a candidate is taken over or left out, never made
    have hcons : ∀ {seen out'}, mergeUnseen seen rest = .ok out' → c :: out' ⊆ c :: rest :=
      fun h' => List.cons_subset_cons c (ih h')
    unfold mergeUnseen at h
    split at h
    · split at h
      · obtain ⟨out', hout', h⟩ := bind_eq_ok.mp h
        cases h
        exact hcons hout'
      · obtain ⟨k, -, h⟩ := bind_eq_ok.mp h
        split at h
        · -- it was seen before
          exact List.subset_cons_of_subset _ (ih h)
        · obtain ⟨out', hout', h⟩ := bind_eq_ok.mp h
          cases h
          exact hcons hout'
    · exact List.subset_cons_of_subset _ (ih h)

/-- Every candidate that comes to the selection is the hub's. -/
theorem SearchRun.returned (run : SearchRun env jobId req s) (hok : s.failed = false)
    {m : List (String × Json)} (hm : .obj m ∈ s.candidates.getD []) :
    HubReturned env jobId req m := by
  obtain ⟨-, -, hplanned, hsearched, -⟩ := run.unfailed hok
  obtain ⟨-, hreq, -, -, -⟩ := run.request hok
  -- what was searched came from one of the themes
  have hsearch : .obj m ∈ run.searched.candidates.getD [] → HubReturned env jobId req m := by
    intro hmem
    obtain ⟨results, candidates, hresults, hmerged, hcandidates⟩ :=
      searchPlaces_ok run.search hsearched
    rw [hreq] at hresults hmerged
    rw [hcandidates, Option.getD_some] at hmem
    obtain ⟨merged, hmerge, hkept⟩ := bind_eq_ok.mp hmerged
    cases hkept
    obtain ⟨response, hresponse, hlisted⟩ :=
      List.mem_flatMap.mp (mergeUnseen_subset hmerge (List.mem_of_mem_filter hmem))
    have hcall : Except.ok response ∈ searchThemes env req := hresults ▸ List.mem_map_of_mem hresponse
    obtain ⟨⟨kw, i⟩, hkw, hcall⟩ := List.mem_map.mp hcall
    exact .theme run.comesSearch hplanned hkw hcall hlisted
  -- the filter hands out what it was given, or the hub's own list
  have hfiltered : .obj m ∈ run.filtered.candidates.getD [] → HubReturned env jobId req m := by
    intro hmem
    rcases rulesFilter_ok run.filter with h | ⟨filtered, hleft, h⟩
    · exact hsearch (h ▸ hmem)
    · rw [h] at hmem
      exact .filtered run.comesFilter hsearched hleft hmem
  -- ranking only reorders
  rcases scoreAndRank_ok run.rank with h | ⟨ranked, h, hperm⟩
  · exact hfiltered (h ▸ hm)
  · rw [h] at hm
    exact hfiltered (hperm.mem_iff.mp hm)

/-! ### Places -/

/-- A verified place is backed by what was found under its name. -/
theorem verified_backed {n : AgentNode} (hn : n = .loadGivenPlaces ∨ n = .recommendPlaces)
    (hs : Comes env jobId req n s) (hok : s.failed = false) {places : List Place}
    (h : List.Forall₂ (fun g p => Verified env req g.2 g.1 p) req.given.zipIdx places) :
    ∀ p ∈ places, HubBacked env jobId req p := by
  intro p hp
  obtain ⟨⟨given, i⟩, hgiven, response, candidates, hresponse, hcandidates, hfound⟩ :=
    exists_of_mem_right h hp
  obtain ⟨c, hc, hplace, -⟩ := findMatch_some hfound
  obtain ⟨-, -, m, rfl, hbacks⟩ := placeFromCandidate_backs hplace
  exact ⟨m, .picked hn hs hok hgiven hresponse hcandidates hc, hbacks⟩

/-- Renumbering a place leaves what it says about itself. -/
theorem HubBacked.withId {p : Place} (h : HubBacked env jobId req p) (i : Int) :
    HubBacked env jobId req (p.withId i) := by
  obtain ⟨m, hm, hbacks⟩ := h
  exact ⟨m, hm, hbacks.contentId, hbacks.source, hbacks.lat, hbacks.lng, hbacks.name,
    hbacks.address, hbacks.grounded⟩

/-- So does adding texts and times. -/
theorem HubBacked.enrich {p : Place} (h : HubBacked env jobId req p) (reason bullets slot) :
    HubBacked env jobId req (p.enrich reason bullets slot) := by
  obtain ⟨m, hm, hbacks⟩ := h
  exact ⟨m, hm, hbacks.contentId, hbacks.source, hbacks.lat, hbacks.lng, hbacks.name,
    hbacks.address, hbacks.grounded⟩

/-- The places of every path are backed by the hub. -/
theorem Drafted.backed (h : Drafted env jobId req s) (hok : s.failed = false)
    {places : List Place} (hplaces : s.places = some places) :
    ∀ p ∈ places, HubBacked env jobId req p := by
  cases h with
  | given run =>
    -- the places of a route were verified with the hub
    have hfetched := unfailed_before env .loadGivenPlaces rfl run.load hok
    obtain ⟨-, -, -, places', hplaces', hverify⟩ := run.verified hok
    obtain rfl : places = places' := Option.some.inj (hplaces.symm.trans hplaces')
    exact verified_backed (.inl rfl) run.comesLoad hfetched (verifyFrom_verified hverify)
  | @chosen j j' run comes choose =>
    have hranked := failed_of_runNode (n := .recommendPlaces) choose hok
    obtain ⟨-, -, -, -, hreq⟩ := run.request hranked
    obtain ⟨pinned, places', hpinned, hrec, hplaces', -⟩ := recommendPlaces_ok choose hok
    obtain rfl : places = places' := Option.some.inj (hplaces.symm.trans hplaces')
    rw [hreq] at hpinned
    -- so were the places pinned in the other stages
    have hpins : ∀ p ∈ pinned, HubBacked env jobId req p := fun p hp =>
      verified_backed (.inr rfl) comes hranked (hpinned.forall₂ (List.ne_nil_of_mem hp)).2 p hp
    cases hrec with
    | filled _ _ => exact hpins
    | @merged capped fresh hcap hselected _ =>
      -- a fresh place is a candidate that the cap kept
      have hfresh : ∀ p ∈ fresh, HubBacked env jobId req p := fun p hp => by
        obtain ⟨used, hmade, -⟩ := hselected.made
        obtain ⟨sel, -, hfrom⟩ := exists_of_mem_right hmade hp
        obtain ⟨-, m, hm, hbacks⟩ := hfrom.place
        exact ⟨m, run.returned hranked
          ((capCandidates_sublist hcap).subset (List.mem_of_getElem? hm)), hbacks⟩
      split
      · exact hfresh
      · intro p hp
        obtain ⟨q, hq | hq, i, rfl⟩ := mem_mergePinned hp
        · exact (hpins q hq).withId i
        · exact (hfresh q hq).withId i

/-- What the candidate says leaves nothing open. -/
theorem Backs.unique {pf : Platform} {m : List (String × Json)} {p q : Place} (hp : Backs pf m p)
    (hq : Backs pf m q) :
    (p.contentId, p.source, p.lat, p.lng, p.name, p.address, p.grounded) =
      (q.contentId, q.source, q.lat, q.lng, q.name, q.address, q.grounded) := by
  obtain ⟨cid, hcid, hpcid, -⟩ := hp.contentId
  obtain ⟨cid', hcid', hqcid, -⟩ := hq.contentId
  obtain ⟨src, hsrc, hpsrc, -⟩ := hp.source
  obtain ⟨src', hsrc', hqsrc, -⟩ := hq.source
  obtain ⟨name, hname, hpname⟩ := hp.name
  obtain ⟨name', hname', hqname⟩ := hq.name
  have hcid := Json.str.inj (hcid.symm.trans hcid')
  have hsrc := Json.str.inj (hsrc.symm.trans hsrc')
  have hname := Json.str.inj (hname.symm.trans hname')
  have hlat := Except.ok.inj (hp.lat.symm.trans hq.lat)
  have hlng := Except.ok.inj (hp.lng.symm.trans hq.lng)
  have haddress : p.address = q.address := by
    rcases hp.address with ⟨a, ha, hpa⟩ | ⟨hempty, hpa⟩ <;>
      rcases hq.address with ⟨a', ha', hqa⟩ | ⟨hempty', hqa⟩
    · -- the address is a text on both sides
      rw [hpa, hqa, Json.str.inj (ha.symm.trans ha')]
    · -- an empty text, cut or not
      have ha : a = "" := by simpa [ha, Json.truthy] using hempty'
      simp [hpa, hqa, ha, takeChars]
    · have ha' : a' = "" := by simpa [ha', Json.truthy] using hempty
      simp [hpa, hqa, ha', takeChars]
    · rw [hpa, hqa]
  rw [hpcid, hqcid, hpsrc, hqsrc, hlat, hlng, hpname, hqname, haddress, hp.grounded, hq.grounded,
    hcid, hsrc, hname]

/-- Every published place says what some object says that the hub returned in
    the same run, and that object leaves nothing of it open. -/
theorem published_backed {p : JobDonePayload} (h : p ∈ runJob env jobId req)
    (hdone : p.status = .done) :
    ∃ places, p.places = some places ∧ ∀ x ∈ places, ∃ m, HubReturned env jobId req m ∧
      Backs env.platform m x ∧ ∀ y, Backs env.platform m y →
        (y.contentId, y.source, y.lat, y.lng, y.name, y.address, y.grounded) =
          (x.contentId, x.source, x.lat, x.lng, x.name, x.address, x.grounded) := by
  obtain ⟨run⟩ := doneRun_of_mem h hdone
  obtain ⟨drafted, -, dropped, legs, hdrafted, -, hfitted, -, -⟩ := run.fitted_routed
  obtain ⟨enrich, henrich, hplaces, -, -, -⟩ := run.published hfitted
  refine ⟨_, hplaces, fun x hx => ?_⟩
  obtain ⟨y, hy, rfl⟩ := List.mem_map.mp hx
  obtain ⟨reason, bullets, hy'⟩ := henrich y
  -- what is dropped or enriched later changes nothing that the hub said
  have hbacked := run.draft.backed run.drafted_ok hdrafted y (List.mem_of_mem_filter hy)
  obtain ⟨m, hm, hbacks⟩ := hbacked.enrich reason bullets _
  rw [hy']
  exact ⟨m, hm, hbacks, fun z hz => hz.unique hbacks⟩

/-- The places of the sample route are the hub's. -/
theorem published_backed_sample :
    ∃ p ∈ runJob sampleEnv "j" (sampleTrip .route), ∃ places, p.places = some places ∧
      ∀ x ∈ places, HubBacked sampleEnv "j" (sampleTrip .route) x := by
  obtain ⟨p, hp, hdone, -⟩ := sampleTrip_done .route
  have hmem : p ∈ runJob sampleEnv "j" (sampleTrip .route) := hp ▸ List.mem_singleton_self p
  obtain ⟨places, hplaces, hbacked⟩ := published_backed hmem hdone
  refine ⟨p, hmem, places, hplaces, fun x hx => ?_⟩
  obtain ⟨m, hm, hbacks, -⟩ := hbacked x hx
  exact ⟨m, hm, hbacks⟩

end MapServiceAgent.Native

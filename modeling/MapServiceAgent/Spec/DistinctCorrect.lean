import MapServiceAgent.Spec.CandidatesCorrect
import MapServiceAgent.Spec.ItineraryCorrect

/-!
# Places published once

A drafted trip publishes no source place twice, as long as the places its caller
wants to keep are not the same candidate of the hub.

## Key results

- `Drafted.split`: drafted places are the pins and distinct others
- `published_distinct_iff`: a published trip repeats a place exactly when the
  kept places do
- `kept_twice`: a caller that keeps one place twice gets it twice
-/

namespace MapServiceAgent.Native

variable {env : Env} {jobId : String} {req : AgentRequest} {s s' : AgentState}

/-! ### Identifiers of places -/

/-- A string under `content_id` is the candidate's identifier. -/
theorem contentId?_obj {m : List (String × Json)} {cid : String}
    (h : dictGet m "content_id" = .str cid) : contentId? (.obj m) = some cid := by
  rw [contentId?, h]

/-- The place has an identifier that counts as one of a source. -/
def Place.HasSource (p : Place) : Prop :=
  ∃ cid, p.contentId = some cid ∧ p.sourceId = some cid

/-- A backed place has the identifier of its candidate. -/
theorem Backs.contentId? {m : List (String × Json)} {p : Place} (h : Backs env.platform m p) :
    ∃ cid, Native.contentId? (.obj m) = some cid ∧ p.contentId = some cid := by
  obtain ⟨cid, hcid, hp, -⟩ := h.contentId
  exact ⟨cid, contentId?_obj hcid, hp⟩

/-- A backed place names a place of the hub. -/
theorem Backs.hasSource {m : List (String × Json)} {p : Place} (h : Backs env.platform m p) :
    p.HasSource := by
  obtain ⟨cid, -, hp, hsource⟩ := h.contentId
  refine ⟨cid, hp, ?_⟩
  -- a blank identifier is none of a source
  have hne : cid ≠ "" := by
    rintro rfl
    exact absurd hsource (by decide)
  rw [Place.sourceId, hp, Option.filter_some, if_pos (decide_eq_true hne)]

/-- Different selections of distinct candidates make different places. -/
theorem Selected.contentIds_nodup {candidates : List Json} {fresh : List Place}
    (h : Selected env req candidates fresh) {exclude : List String}
    (hdistinct : Distinct exclude candidates) : (fresh.map (·.contentId)).Nodup := by
  obtain ⟨used, hmade, hindex, -⟩ := h.made
  refine List.pairwise_map.mpr
    (pairwise_of_forall₂ hmade (fun {a b x y} hx hy hab heq => hab ?_) (List.pairwise_map.mp hindex))
  -- two places of one identifier were selected at one position
  obtain ⟨-, m, hm, hbacks⟩ := hx.place
  obtain ⟨-, m', hm', hbacks'⟩ := hy.place
  obtain ⟨cid, hcid, hxcid⟩ := hbacks.contentId?
  obtain ⟨cid', hcid', hycid⟩ := hbacks'.contentId?
  obtain rfl : cid = cid' := Option.some.inj (hxcid.symm.trans (heq.trans hycid))
  have := getElem?_inj_of_filterMap_nodup hdistinct.ids_nodup hm hm' hcid hcid'
  have := a.index_nonneg
  have := b.index_nonneg
  omega

/-! ### Kept places -/

/-- The first matching candidates of two kept places have one identifier. -/
def SameCandidate (env : Env) (req : AgentRequest) (a b : SelectedPlace × Nat) : Prop :=
  ∃ p q, Verified env req a.2 a.1 p ∧ Verified env req b.2 b.1 q ∧ p.contentId = q.contentId

/-- The caller keeps no candidate twice. -/
def KeepsDistinct (env : Env) (req : AgentRequest) : Prop :=
  req.stage = .mode1 → req.given.zipIdx.Pairwise fun a b => ¬ SameCandidate env req a b

/-- The hub's answer decides which place a given one is verified as. -/
theorem Verified.unique {i : Nat} {given : SelectedPlace} {p q : Place}
    (hp : Verified env req i given p) (hq : Verified env req i given q) : p = q := by
  obtain ⟨response, candidates, hresponse, hcandidates, hfound⟩ := hp
  obtain ⟨response', candidates', hresponse', hcandidates', hfound'⟩ := hq
  obtain rfl := Except.ok.inj (hresponse.symm.trans hresponse')
  obtain rfl := Except.ok.inj (hcandidates.symm.trans hcandidates')
  exact Option.some.inj (Except.ok.inj (hfound.symm.trans hfound'))

/-- The pins are pairwise different when the places given are verified as pairwise
    different ones. -/
theorem Pinned.contentIds_nodup_iff {pinned : List Place} (h : Pinned env req pinned) :
    (pinned.map (·.contentId)).Nodup ↔ KeepsDistinct env req := by
  cases h with
  | none hnil =>
    -- no place was given, so none is pinned
    refine ⟨fun _ hstage => ?_, fun _ => .nil⟩
    rw [hnil hstage]
    exact .nil
  | verified hstage _ hverify =>
    have hverified := verifyFrom_verified hverify
    -- each place given stands beside the one verified for it
    rw [KeepsDistinct, List.Nodup, List.pairwise_map]
    constructor
    · -- two given places verified as one are two equal pins
      intro hnodup _
      refine pairwise_of_forall₂ hverified.flip (fun {p q a b} ha hb hpq => ?_) hnodup
      rintro ⟨p', q', hp', hq', heq⟩
      rw [Verified.unique ha hp', Verified.unique hb hq'] at hpq
      exact hpq heq
    · -- two equal pins are two given places verified as one
      intro hkeeps
      exact pairwise_of_forall₂ hverified (fun {a b p q} ha hb hab heq => hab ⟨p, q, ha, hb, heq⟩)
        (hkeeps hstage)

/-! ### Drafted places -/

/-- Numbering the places anew leaves their identifiers. -/
theorem renumber_contentIds (places : List Place) :
    (renumber places).map (·.contentId) = places.map (·.contentId) := by
  conv_rhs => rw [← List.zipIdx_map_fst 0 places]
  rw [renumber, List.map_map, List.map_map]
  rfl

/-- Drafted places are the pins and others, all different and none a pin. -/
structure Split (pinned : List Place) (rest places : List (Option String)) : Prop where
  perm : places.Perm (pinned.map (·.contentId) ++ rest)
  rest_nodup : rest.Nodup
  disjoint : ∀ cid ∈ rest, cid ∉ pinned.map (·.contentId)

/-- What is split off the pins repeats nothing, so only the pins can. -/
theorem Split.nodup_iff {pinned : List Place} {rest places : List (Option String)}
    (h : Split pinned rest places) :
    places.Nodup ↔ (pinned.map (·.contentId)).Nodup := by
  rw [h.perm.nodup_iff, List.nodup_append]
  refine ⟨fun hnodup => hnodup.1, fun hnodup => ⟨hnodup, h.rest_nodup, fun a ha b hb hab => ?_⟩⟩
  exact h.disjoint b hb (hab ▸ ha)

/-- The pins of a split are those of its places that are pinned. -/
theorem Split.filter_perm {pinned : List Place} {rest places : List (Option String)}
    (h : Split pinned rest places) :
    (places.filter (· ∈ pinned.map (·.contentId))).Perm (pinned.map (·.contentId)) := by
  refine (h.perm.filter _).trans (.of_eq ?_)
  rw [List.filter_append, List.filter_eq_self.mpr fun a ha => decide_eq_true ha,
    List.filter_eq_nil_iff.mpr fun a ha => by simpa using h.disjoint a ha, List.append_nil]

/-- Merging puts the pins and the fresh places that are no pin in one list. -/
theorem mergePinned_split {pinned fresh : List Place} (hfresh : (fresh.map (·.contentId)).Nodup)
    (hpinned : ∀ p ∈ pinned, p.HasSource) (hsource : ∀ p ∈ fresh, p.HasSource) :
    ∃ rest, Split pinned rest ((mergePinned pinned fresh).map (·.contentId)) := by
  -- the fresh places that no pinned one is already
  let added := fresh.filter fun p => p.sourceId.all (· ∉ pinned.filterMap Place.sourceId)
  refine ⟨added.map (·.contentId), ?_, (List.filter_sublist.map _).nodup hfresh, ?_⟩
  · -- sorting by day and numbering keep the places
    rw [mergePinned, renumber_contentIds, ← List.map_append]
    exact (sortedBy_perm _ _).map _
  · -- a fresh place that is a pin would have been left out
    intro cid hcid hmem
    obtain ⟨x, hx, rfl⟩ := List.mem_map.mp hcid
    obtain ⟨p, hp, hpx⟩ := List.mem_map.mp hmem
    obtain ⟨hx, hnew⟩ := List.mem_filter.mp hx
    obtain ⟨c, hxc, hxs⟩ := hsource x hx
    obtain ⟨d, hpd, hps⟩ := hpinned p hp
    obtain rfl : d = c := Option.some.inj (hpd.symm.trans (hpx.trans hxc))
    rw [hxs, Option.all_some, decide_eq_true_eq] at hnew
    exact hnew (List.mem_filterMap.mpr ⟨p, hp, hps⟩)

/-- The drafted places of a trip whose route the user did not set. -/
theorem Drafted.split (h : Drafted env jobId req s) (hok : s.failed = false)
    (hstage : req.stage ≠ .route) (hfilter : FilterSublist env.hub) :
    ∃ pinned places rest, Pinned env req pinned ∧ (∀ p ∈ pinned, p.HasSource) ∧
      s.places = some places ∧ s.pinnedContentIds = some (pinned.filterMap Place.sourceId) ∧
      Split pinned rest (places.map (·.contentId)) := by
  cases h with
  | given run => exact absurd (run.verified hok).2.1 hstage
  | @chosen j j' run comes choose =>
    have hranked := failed_of_runNode (n := .recommendPlaces) choose hok
    obtain ⟨-, -, -, -, hreq⟩ := run.request hranked
    obtain ⟨pinned, places, hpinned, hrec, hplaces, hids⟩ := recommendPlaces_ok choose hok
    rw [hreq] at hpinned
    have hsource : ∀ p ∈ pinned, p.HasSource := fun p hp => by
      obtain ⟨g, -, hg⟩ := exists_of_mem_right (hpinned.forall₂ (List.ne_nil_of_mem hp)).2 hp
      obtain ⟨-, -, -, m, hbacks⟩ := hg.place
      exact hbacks.hasSource
    cases hrec with
    | filled _ _ =>
      -- the pins fill the trip: nothing else is selected
      exact ⟨pinned, pinned, [], hpinned, hsource, hplaces, hids, by simp, .nil, fun _ h => nomatch h⟩
    | @merged capped fresh hcap hselected _ =>
      have hdistinct := (run.candidates hranked hfilter).sublist (capCandidates_sublist hcap)
      have hfresh := hselected.contentIds_nodup hdistinct
      split at hplaces
      · -- no pins: all places are fresh
        rename_i hnil
        subst hnil
        exact ⟨[], fresh, _, hpinned, hsource, hplaces, hids, .refl _, hfresh,
          fun _ _ => List.not_mem_nil⟩
      · -- a fresh place that doubles a pin is left out of the merge
        obtain ⟨rest, hsplit⟩ := mergePinned_split hfresh hsource fun p hp => by
          obtain ⟨used, hmade, -⟩ := hselected.made
          obtain ⟨sel, -, hfrom⟩ := exists_of_mem_right hmade hp
          obtain ⟨-, m, -, hbacks⟩ := hfrom.place
          exact hbacks.hasSource
        exact ⟨pinned, _, rest, hpinned, hsource, hplaces, hids, hsplit⟩

/-! ### Trimming keeps the pins -/

/-- What is left once unpinned stops are dropped repeats a place exactly when
    the pins do. -/
theorem Split.trimmed {pinned places : List Place} {rest : List (Option String)} {order : List Int}
    {legs : List Leg} {dropped : List Int} (h : Split pinned rest (places.map (·.contentId)))
    (hsource : ∀ p ∈ pinned, p.HasSource) (hs : Routed s places order legs)
    (hids : s.pinnedContentIds = some (pinned.filterMap Place.sourceId))
    (hkeeps : Keeps s order [] dropped) :
    ((places.filter fun p => p.placeId ∉ dropped).map (·.contentId)).Nodup ↔
      (pinned.map (·.contentId)).Nodup := by
  constructor
  · intro hnodup
    -- no pin was dropped
    have hpins : places.filter (fun p => p.contentId ∈ pinned.map (·.contentId)) =
        (places.filter fun p => p.placeId ∉ dropped).filter
          (fun p => p.contentId ∈ pinned.map (·.contentId)) := by
      rw [List.filter_filter]
      refine List.filter_congr fun p hp => ?_
      rw [Bool.eq_self_and, decide_eq_true_eq]
      intro hpin
      obtain ⟨q, hq, hqp⟩ := List.mem_map.mp hpin
      obtain ⟨cid, hcid, hqsource⟩ := hsource q hq
      refine decide_eq_true fun hdrop => ?_
      have hunpinned := (hkeeps.unpinned _ hdrop).resolve_left List.not_mem_nil
      rw [Unpinned, hs.placeById hp, Option.bind_some, ← hqp, hcid, Option.all_some, hids,
        Option.getD_some, decide_eq_true_eq] at hunpinned
      exact hunpinned (List.mem_filterMap.mpr ⟨q, hq, hqsource⟩)
    rw [← h.filter_perm.nodup_iff, List.filter_map]
    change ((places.filter fun p => p.contentId ∈ pinned.map (·.contentId)).map (·.contentId)).Nodup
    rw [hpins]
    exact (List.filter_sublist.map _).nodup hnodup
  · -- dropping places makes no two alike
    exact fun hnodup => (List.filter_sublist.map _).nodup (h.nodup_iff.mpr hnodup)

/-! ### The message -/

/-- Enriching a place leaves its identifier. -/
@[simp] theorem Place.contentId_enrich (p : Place) (reason bullets slot) :
    (p.enrich reason bullets slot).contentId = p.contentId := rfl

/-- Enriched places have the identifiers they had. -/
theorem Enriches.map_contentId {timeline : List (Int × Slot)} {enrich : Place → Place}
    (h : Enriches timeline enrich) (places : List Place) :
    (places.map enrich).map (·.contentId) = places.map (·.contentId) := by
  rw [List.map_map]
  refine List.map_congr_left fun x _ => ?_
  obtain ⟨_, _, hx⟩ := h x
  rw [Function.comp_apply, hx, Place.contentId_enrich]

/-- A published trip repeats no source place exactly when the places its caller
    keeps are different candidates of the hub. -/
theorem published_distinct_iff {p : JobDonePayload} (h : p ∈ runJob env jobId req)
    (hdone : p.status = .done) (hstage : req.stage ≠ .route) (hfilter : FilterSublist env.hub) :
    (∃ places, p.places = some places ∧ (places.map (·.contentId)).Nodup) ↔
      KeepsDistinct env req := by
  obtain ⟨run⟩ := doneRun_of_mem h hdone
  obtain ⟨pinned, places, rest, hpinned, hsource, hplaces, hids, hsplit⟩ :=
    run.draft.split run.drafted_ok hstage hfilter
  obtain ⟨drafted, legs, dropped, legs', hdrafted, htimed, hfitted, hkeeps, -⟩ := run.fitted_routed
  obtain rfl : places = drafted := Option.some.inj (hplaces.symm.trans hdrafted)
  -- the pins are known from the draft to the fit
  have hids' : run.timed.pinnedContentIds = some (pinned.filterMap Place.sourceId) := by
    rw [buildTimeline_frame run.time, recommendRoute_frame run.route]
    exact hids
  obtain ⟨enrich, henrich, hpub, -⟩ := run.published hfitted
  rw [hpub, ← hpinned.contentIds_nodup_iff, ← hsplit.trimmed hsource htimed hids' hkeeps,
    ← henrich.map_contentId]
  exact ⟨fun ⟨_, heq, hnodup⟩ => Option.some.inj heq ▸ hnodup, fun hnodup => ⟨_, rfl, hnodup⟩⟩

/-- What is kept under an identifier is published under it. -/
theorem contentId_of_verified {cid : String} (h : (lengthIn 1 64 cid && cleanText cid) = true)
    (hne : cid ≠ "") {i : Nat} {p : Place} (hp : Verified env req i (sampleGiven cid h) p) :
    p.contentId = some cid := by
  have hmatches := hp.place.2.2.1
  unfold matchesGiven sampleGiven at hmatches
  dsimp only at hmatches
  rwa [if_pos hne, beq_iff_eq] at hmatches

/-- The two places of the sample are verified as different ones. -/
theorem keepsDistinct_sample : KeepsDistinct sampleEnv (sampleTrip .mode1) := by
  intro _
  refine List.pairwise_pair.mpr ?_
  rintro ⟨p, q, hp, hq, hsame⟩
  have hpa : p.contentId = some "a" := contentId_of_verified (by decide) (by decide) hp
  have hqb : q.contentId = some "b" := contentId_of_verified (by decide) (by decide) hq
  rw [hpa, hqb] at hsame
  exact absurd hsame (by decide)

/-- The sample trip keeps two candidates, and publishes each of them once. -/
theorem published_distinct_sample :
    ∃ p ∈ runJob sampleEnv "j" (sampleTrip .mode1), ∃ places, p.places = some places ∧
      places.map (·.contentId) = [some "a", some "b"] ∧ (places.map (·.contentId)).Nodup := by
  obtain ⟨p, hp, hdone, -⟩ := sampleTrip_done .mode1
  have hmem : p ∈ runJob sampleEnv "j" (sampleTrip .mode1) := hp ▸ List.mem_singleton_self p
  obtain ⟨places, hplaces, hnodup⟩ :=
    (published_distinct_iff hmem hdone (by decide) sampleHub_filterSublist).mpr keepsDistinct_sample
  have hids : (runJob sampleEnv "j" (sampleTrip .mode1)).map (fun p =>
      p.places.map (·.map (·.contentId))) = [some [some "a", some "b"]] := by
    decide +kernel
  rw [hp, List.map_singleton, hplaces] at hids
  exact ⟨p, hmem, places, hplaces, Option.some.inj (List.singleton_inj.mp hids), hnodup⟩

/-- A caller that keeps one place twice. -/
def keptTwice : AgentRequest :=
  sampleRequest .mode1 [sampleGiven "a" (@rfl Bool true), sampleGiven "a" (@rfl Bool true)]
    (@rfl Bool true)

/-- The place is published twice, under two numbers. -/
theorem kept_twice : FilterSublist sampleEnv.hub ∧
    ∃ p ∈ runJob sampleEnv "j" keptTwice, p.status = .done ∧ ∃ places, p.places = some places ∧
      ¬ (places.map (·.contentId)).Nodup := by
  have h : (runJob sampleEnv "j" keptTwice).map (fun p =>
      (p.status, p.places.map (·.map (·.contentId)))) =
        [(.done, some [some "a", some "a", some "b"])] := by
    decide +kernel
  obtain ⟨p, hp, h⟩ := List.mem_map.mp (h ▸ List.mem_singleton_self _)
  obtain ⟨hdone, hplaces⟩ := Prod.mk.inj h
  obtain ⟨places, hplaces, hids⟩ := Option.map_eq_some_iff.mp hplaces
  exact ⟨sampleHub_filterSublist, p, hp, hdone, places, hplaces, by rw [hids]; decide⟩

end MapServiceAgent.Native

import MapServiceAgent.Native.SelectionNodes
import MapServiceAgent.Spec.RankCorrect

/-!
# Weather beats taste

What personalization adds to the score of a candidate is at most a tenth. A hub
that adds more than that to what is indoors on a rainy day puts an indoor
candidate before the outdoor ones it is not far behind.

## Key results

- `affinity_bounds`, `segmentGain_bounds`: what taste can add
- `poisOf_offers`: what the hub is told of each candidate
- `indoor_first`: the ranking of a rainy day
-/

namespace MapServiceAgent.Native

variable {env : Env} {s : AgentState} {entries candidates : List Json}

/-! ### What taste can add -/

/-- What personalization may add to a score. -/
def IsPart (q : ℚ) : Prop := 0 ≤ q ∧ q ≤ affinityMax

/-- Nothing is a part. -/
theorem isPart_zero : IsPart 0 := ⟨le_rfl, by unfold affinityMax; norm_num⟩

/-- The larger of two parts is one. -/
theorem IsPart.max {q r : ℚ} (hq : IsPart q) (hr : IsPart r) : IsPart (max q r) :=
  ⟨le_max_of_le_left hq.1, max_le hq.2 hr.2⟩

/-- The share of the theme at any position is a part. -/
theorem isPart_decayed (i : Nat) : IsPart (affinityMax * affinityDecay ^ i) := by
  have hdecay : 0 ≤ affinityDecay ∧ affinityDecay ≤ 1 := by
    unfold affinityDecay
    norm_num
  have hpow := pow_nonneg hdecay.1 i
  have hle := pow_le_one₀ (n := i) hdecay.1 hdecay.2
  have hmax : 0 ≤ affinityMax := isPart_zero.2
  exact ⟨mul_nonneg hmax hpow, mul_le_of_le_one_right hmax hle⟩

/-- The liking reckoned from a part is one. -/
theorem affinityFrom_bounds {code text : Json} {best : ℚ} {i : Nat} {themes : List String} {q : ℚ}
    (hbest : IsPart best) (h : affinityFrom code text best i themes = .ok q) : IsPart q := by
  induction themes generalizing best i with
  | nil =>
    cases h
    exact hbest
  | cons raw rest ih =>
    rw [affinityFrom] at h
    split at h
    · -- an unknown theme
      exact ih hbest h
    · -- a theme that hits can only raise the best to its own share
      have hhit := hbest.max (isPart_decayed i)
      dsimp only at h
      split at h
      · -- the code hits
        exact ih hhit h
      · obtain ⟨found, -, h⟩ := bind_eq_ok.mp h
        split at h
        · -- a word of the theme is found, or none
          exact ih hhit h
        · exact ih hbest h

/-- The best theme adds at most a tenth. -/
theorem affinity_bounds {m : List (String × Json)} {themes : List String} {q : ℚ}
    (h : affinity m themes = .ok q) : IsPart q := affinityFrom_bounds isPart_zero h

/-- A rate that is read is from 0 to 1. -/
theorem segmentRate_bounds {pf : Platform} {entry : Json} {rate : ℚ}
    (h : segmentRate pf entry = some rate) : 0 ≤ rate ∧ rate ≤ 1 := by
  unfold segmentRate at h
  split at h
  · split at h
    · cases h
    · split at h
      · split at h
        · cases h
          assumption
        · cases h
      · cases h
  · cases h

/-- A rate adds its share of a tenth, and what is no rate nothing. -/
theorem isPart_rate (pf : Platform) (entry : Json) :
    IsPart (affinityMax * (segmentRate pf entry).getD 0) := by
  cases hrate : segmentRate pf entry with
  | none =>
    rw [Option.getD_none, mul_zero]
    exact isPart_zero
  | some rate =>
    obtain ⟨hpos, hle⟩ := segmentRate_bounds hrate
    have hmax : 0 ≤ affinityMax := isPart_zero.2
    rw [Option.getD_some]
    exact ⟨mul_nonneg hmax hpos, mul_le_of_le_one_right hmax hle⟩

/-- The counts of a segment add at most a tenth, whatever rates they hold. -/
theorem segmentGain_bounds {pf : Platform} {m : List (String × Json)} {segment : Json} {q : ℚ}
    (h : segmentGain pf m segment = .ok q) : IsPart q := by
  unfold segmentGain at h
  dsimp only at h
  split at h
  · split at h
    · -- there is no identifier to look up
      cases h
      exact isPart_zero
    · split at h
      · split at h
        · cases h
        · cases h
          -- the place is listed
          exact isPart_rate _ _
        · cases h
          exact isPart_zero
      · cases h
        exact isPart_zero
  · cases h
    exact isPart_zero

/-! ### What the hub is told -/

/-- A candidate with an identifier. -/
def Identified (c : Json) : Prop :=
  ∃ m cid, c = .obj m ∧ dictGet m "content_id" = .str cid ∧ cid ≠ ""

/-- What the hub is told of the candidate at a position: its score there and what
    personalization adds. -/
def Offers (env : Env) (x : Json × Nat) (poi : Json) : Prop :=
  ∃ m cid indoor part, x.1 = .obj m ∧ dictGet m "content_id" = .str cid ∧ isIndoor m = .ok indoor ∧
    IsPart part ∧ (env.settings.personalizationEnabled = false → part = 0) ∧
    poi = .obj [("content_id", .str cid), ("indoor_flag", .bool indoor),
      ("base_score", .float (.fin (rankDecay x.2 + part)))]

/-- What is made of an identified candidate offers it to the scorer. -/
theorem offers_of_poiOf {req : AgentRequest} {x : Json × Nat} (hx : Identified x.1)
    {poi : Option Json}
    (h : poiOf env (themesOf env req) (segmentOf env) x.1 x.2 = .ok poi) :
    ∃ p, poi = some p ∧ Offers env x p := by
  obtain ⟨m, cid, hm, hcid, hne⟩ := hx
  rw [hm] at h
  unfold poiOf at h
  dsimp only at h
  rw [hcid, if_neg (by simpa [Json.truthy] using hne)] at h
  obtain ⟨indoor, hindoor, h⟩ := bind_eq_ok.mp h
  obtain ⟨liking, hliking, h⟩ := bind_eq_ok.mp h
  obtain ⟨gain, hgain, h⟩ := bind_eq_ok.mp h
  cases h
  refine ⟨_, rfl, m, cid, indoor, max liking gain, hm, hcid, hindoor,
    (affinity_bounds hliking).max (segmentGain_bounds hgain), fun hoff => ?_, rfl⟩
  -- without personalization there are no themes, and no segment
  unfold themesOf at hliking
  unfold segmentOf at hgain
  rw [hoff] at hliking hgain
  cases hliking
  cases hgain
  exact max_self 0

/-- Candidates with identifiers are offered one by one. -/
theorem poisOf_offers (hstats : StatsLoaded env) {req : AgentRequest} {pois : List Json}
    (hids : ∀ c ∈ candidates, Identified c) (h : poisOf env req candidates = .ok pois) :
    List.Forall₂ (Offers env) candidates.zipIdx pois := by
  rw [poisOf_eq hstats] at h
  obtain ⟨options, hoptions, hdone⟩ := bind_eq_ok.mp h
  cases hdone
  have hall : ∀ x ∈ candidates.zipIdx, Identified x.1 :=
    fun x hx => hids x.1 (List.fst_mem_of_mem_zipIdx hx)
  have hpois := mapM_eq_ok.mp hoptions
  clear h hoptions
  -- every candidate has an identifier, so none is left out
  generalize candidates.zipIdx = l at hall hpois
  induction hpois with
  | nil => exact .nil
  | @cons x option l options hx _ ih =>
    obtain ⟨p, rfl, hp⟩ := offers_of_poiOf (hall x List.mem_cons_self) hx
    exact .cons hp (ih fun y hy => hall y (List.mem_cons_of_mem _ hy))

/-! ### A rainy day -/

/-- What the hub adds to the score of what is indoors. -/
def rainBonus : ℚ := 15 / 100

/-- The hub scores every candidate it was told of, and prefers what is indoors. -/
def RainyScores (pois entries : List Json) : Prop :=
  ∀ m cid indoor base, Json.obj m ∈ pois → dictGet m "content_id" = .str cid →
    dictGet m "indoor_flag" = .bool indoor → dictGet m "base_score" = .float (.fin base) →
    lastScore entries cid = some (base + if indoor then rainBonus else 0)

/-- What a candidate is ranked by on such a day. -/
theorem effectiveScore_rainy {pois : List Json} (hrainy : RainyScores pois entries)
    (hoffers : List.Forall₂ (Offers env) candidates.zipIdx pois) {x : Json × Nat}
    (hx : x ∈ candidates.zipIdx) : ∃ indoor part, indoorFlag x.1 = .ok indoor ∧ IsPart part ∧
      effectiveScore entries x = rankDecay x.2 + part + if indoor then rainBonus else 0 := by
  obtain ⟨poi, hpoi, m, cid, indoor, part, hm, hcid, hindoor, hpart, -, rfl⟩ :=
    exists_of_mem_left hoffers hx
  -- the hub scores what it was offered
  have hscore := hrainy _ cid indoor (rankDecay x.2 + part) hpoi rfl rfl rfl
  refine ⟨indoor, part, ?_, hpart, ?_⟩
  · rw [hm]
    exact hindoor
  · unfold effectiveScore givenScore
    rw [hm]
    dsimp only
    rw [hcid]
    dsimp only
    rw [hscore]
    rfl

/-- A candidate indoors is ranked before one outdoors that is not more than four
    positions ahead of it. -/
theorem effectiveScore_indoor_lt {pois : List Json} (hrainy : RainyScores pois entries)
    (hoffers : List.Forall₂ (Offers env) candidates.zipIdx pois) {a b : Json × Nat}
    (ha : a ∈ candidates.zipIdx) (hb : b ∈ candidates.zipIdx) (hout : indoorFlag a.1 = .ok false)
    (hin : indoorFlag b.1 = .ok true) (hnear : b.2 ≤ a.2 + 4) :
    effectiveScore entries a < effectiveScore entries b := by
  obtain ⟨indoor, partA, hflag, hpartA, heffA⟩ := effectiveScore_rainy hrainy hoffers ha
  rw [hout] at hflag
  cases hflag
  obtain ⟨indoor, partB, hflag, hpartB, heffB⟩ := effectiveScore_rainy hrainy hoffers hb
  rw [hin] at hflag
  cases hflag
  -- four ranks are worth less than the bonus exceeds all taste
  have hcast : (b.2 : ℚ) ≤ a.2 + 4 := by exact_mod_cast hnear
  have hA := hpartA.2
  have hB := hpartB.1
  rw [heffA, heffB, if_neg (by simp), if_pos rfl]
  unfold affinityMax at hA
  unfold rankDecay rainBonus
  linarith

/-- What a hub that prefers what is indoors answers about a candidate. -/
def rainyEntry : Json → Json
  | .obj m =>
    match dictGet m "indoor_flag", dictGet m "base_score" with
    | .bool indoor, .float (.fin base) => .obj [("content_id", dictGet m "content_id"),
        ("score", .float (.fin (base + if indoor then rainBonus else 0)))]
    | _, _ => .null
  | _ => .null

/-- The identifier a candidate is known by. -/
def identifierOf : Json → Option String
  | .obj m =>
    match dictGet m "content_id" with
    | .str cid => some cid
    | _ => none
  | _ => none

/-- The hub is told of the candidates under their identifiers. -/
theorem identifiers_of_offers {pois : List Json}
    (hoffers : List.Forall₂ (Offers env) candidates.zipIdx pois) :
    pois.map identifierOf = candidates.map identifierOf := by
  have hsame : List.Forall₂ (fun x p => identifierOf x.1 = identifierOf p) candidates.zipIdx pois := by
    apply hoffers.imp
    rintro x p ⟨m, cid, indoor, part, hm, hcid, -, -, -, rfl⟩
    rw [hm, identifierOf, hcid]
    rfl
  -- the identifiers agree one by one, so the lists do
  have hmaps : candidates.zipIdx.map (fun x => identifierOf x.1) = pois.map identifierOf := by
    rw [← List.forall₂_eq_eq_eq, List.forall₂_map_left_iff, List.forall₂_map_right_iff]
    exact hsame
  calc pois.map identifierOf
    _ = (candidates.zipIdx.map Prod.fst).map identifierOf := by rw [← hmaps, List.map_map]; rfl
    _ = candidates.map identifierOf := by rw [List.zipIdx_map_fst]

/-- Under distinct identifiers such a hub scores every candidate as it should. -/
theorem rainyScores_of_offers {pois : List Json}
    (hoffers : List.Forall₂ (Offers env) candidates.zipIdx pois)
    (hnodup : (candidates.map identifierOf).Nodup) :
    WellScored (pois.map rainyEntry) ∧ RainyScores pois (pois.map rainyEntry) := by
  -- every offer has the three fields the hub reads
  have hshape : ∀ poi ∈ pois, ∃ cid indoor base, poi = .obj [("content_id", .str cid),
      ("indoor_flag", .bool indoor), ("base_score", .float (.fin base))] := by
    intro poi hpoi
    obtain ⟨x, -, m, cid, indoor, part, -, -, -, -, -, rfl⟩ := exists_of_mem_right hoffers hpoi
    exact ⟨cid, indoor, _, rfl⟩
  constructor
  · intro m hm hgives
    obtain ⟨poi, hpoi, hentry⟩ := List.mem_map.mp hm
    obtain ⟨cid, indoor, base, rfl⟩ := hshape poi hpoi
    cases hentry
    exact ⟨⟨cid, rfl⟩, _, rfl⟩
  · -- the entry of an offer is the only one under its identifier, so it is the last
    intro m cid indoor base hm hcid hindoor hbase
    rw [← identifiers_of_offers hoffers] at hnodup
    obtain ⟨cid', indoor', base', hpoi⟩ := hshape _ hm
    cases hpoi
    cases hcid
    cases hindoor
    cases hbase
    obtain ⟨before, after, rfl⟩ := List.append_of_mem hm
    rw [List.map_append, List.map_cons, List.nodup_middle, List.nodup_cons, ← List.map_append]
      at hnodup
    -- the entries of the others are about other identifiers
    have hother : ∀ poi ∈ before ++ after, entryScore cid (rainyEntry poi) = none := by
      intro poi hpoi
      have hmem : poi ∈ before ∨ poi ∈ after := List.mem_append.mp hpoi
      obtain ⟨cid', indoor', base', rfl⟩ := hshape poi
        (List.mem_append.mpr (hmem.imp_right (List.mem_cons_of_mem _)))
      have hne : cid' ≠ cid := by
        rintro rfl
        exact hnodup.1 (List.mem_map.mpr ⟨_, hpoi, rfl⟩)
      exact if_neg (by simpa [dictGet, Json.eqStr] using hne)
    have hnone : ∀ l ⊆ before ++ after, (l.map rainyEntry).filterMap (entryScore cid) = [] := by
      intro l hl
      rw [List.filterMap_eq_nil_iff]
      intro entry hentry
      obtain ⟨poi, hpoi, rfl⟩ := List.mem_map.mp hentry
      exact hother poi (hl hpoi)
    unfold lastScore
    rw [List.map_append, List.map_cons, List.filterMap_append,
      hnone before (List.subset_append_left _ _), List.filterMap_cons_some (b := base +
        if indoor then rainBonus else 0), hnone after (List.subset_append_right _ _)]
    · rfl
    · exact if_pos (by simp [dictGet, Json.eqStr])

/-- Of the candidates of a rainy day, what is indoors comes before what is
    outdoors unless it was more than four positions behind; and of what the hub
    was told of a candidate, taste made up no more than a tenth. -/
theorem indoor_first (env : Env) (s : AgentState) (candidates : List Json)
    (hs : s.failed = false) (hrules : env.settings.rulesEnabled = true)
    (hgrounded : s.grounded = some true) (hcandidates : s.candidates = some candidates)
    (hids : ∀ c ∈ candidates, Identified c)
    (htexts : ∀ m, Json.obj m ∈ candidates → TextFields m) (hstats : StatsLoaded env)
    (hpop : Returns (dayPopMax s)) :
    ∃ popMax pois, dayPopMax s = .ok popMax ∧ poisOf env s.request candidates = .ok pois ∧
      List.Forall₂ (Offers env) candidates.zipIdx pois ∧
      ∀ resp entries, env.hub.scoreIndoorBonus pois popMax = .ok resp →
        scoredEntries resp = .ok entries → WellScored entries → RainyScores pois entries →
        ∃ (s' : AgentState) (order : List (Json × Nat)), scoreAndRank env s = .ok s' ∧
          s'.candidates = some (order.map (·.1)) ∧ order.Perm candidates.zipIdx ∧
          order.Pairwise fun a b =>
            ¬ (indoorFlag a.1 = .ok false ∧ indoorFlag b.1 = .ok true ∧ b.2 ≤ a.2 + 4) := by
  obtain ⟨popMax, hpop⟩ := hpop
  obtain ⟨pois, hpois⟩ := returns_pois hstats s.request htexts
  have hoffers := poisOf_offers hstats hids hpois
  refine ⟨popMax, pois, hpop, hpois, hoffers, fun resp entries hresp hentries hscored hrainy => ?_⟩
  cases pois with
  | nil =>
    -- nothing to rank
    have hlength := hoffers.length_eq
    rw [List.length_zipIdx, List.length_nil, List.length_eq_zero_iff] at hlength
    subst hlength
    exact ⟨s, [], scoreAndRank_nothing hs hrules hcandidates hpop hpois, hcandidates, .nil, .nil⟩
  | cons poi pois =>
    -- a bonus over the rank decay of four positions carries the indoor candidate
    have hgives : ∃ m, Json.obj m ∈ entries ∧ givesScore m := by
      obtain ⟨x, -, m, cid, indoor, part, -, -, -, -, -, rfl⟩ :=
        exists_of_mem_right hoffers List.mem_cons_self
      exact givesScore_of_lastScore (hrainy _ cid indoor _ List.mem_cons_self rfl rfl rfl)
    have hasking := scoreAndRank_asking hstats hs hrules hgrounded hcandidates hpop hpois (by simp)
    obtain ⟨scores, order, hranked, -, hwith⟩ := (rankWith_outcomes s hscored htexts).2 hgives
    rw [hresp] at hasking
    dsimp only at hasking
    rw [bind_of_eq_ok hentries, hwith] at hasking
    refine ⟨_, order, hasking, rfl, hranked.perm, ?_⟩
    apply hranked.falls.imp_of_mem
    -- an outdoor candidate in front would have at least the score of the indoor one
    rintro a b ha hb hab ⟨hout, hin, hnear⟩
    have hlt := effectiveScore_indoor_lt hrainy hoffers (hranked.perm.mem_iff.mp ha)
      (hranked.perm.mem_iff.mp hb) hout hin hnear
    rcases hab with hgt | ⟨heq, -⟩
    · exact lt_asymm hlt hgt
    · exact hlt.ne heq.symm

/-- The sample environment with a hub that scores by what it is offered. -/
def rainyEnv : Env :=
  { sampleEnv with hub := { sampleHub with
      scoreIndoorBonus := fun pois _ => .ok (.obj [("scored", .arr (pois.map rainyEntry))]) } }

/-- An outdoor candidate, and behind it a café. -/
def rainyCandidates : List Json :=
  [sampleCandidate "a", .obj [("content_id", .str "b"), ("category_group_code", .str "CE7")]]

/-- The sample state with an indoor and an outdoor candidate. -/
def rainyFound : AgentState := { sampleFound with candidates := some rainyCandidates }

/-- Both candidates have an identifier, and texts where they are read. -/
theorem rainyCandidates_texts : ∀ c ∈ rainyCandidates, Identified c ∧
    ∀ m, c = .obj m → TextFields m := by
  intro c hc
  rcases List.mem_cons.mp hc with rfl | hc
  · refine ⟨⟨_, "a", rfl, rfl, by decide⟩, fun m hm => ?_⟩
    cases hm
    exact ⟨Or.inr ⟨"a", rfl⟩, Or.inl rfl, Or.inl rfl⟩
  · cases List.mem_singleton.mp hc
    refine ⟨⟨_, "b", rfl, rfl, by decide⟩, fun m hm => ?_⟩
    cases hm
    exact ⟨Or.inr ⟨"b", rfl⟩, Or.inl rfl, Or.inr ⟨"CE7", rfl⟩⟩

/-- In the rain the café is no longer behind. -/
theorem indoor_first_sample : ∃ (s' : AgentState) (order : List (Json × Nat)),
    scoreAndRank rainyEnv rainyFound = .ok s' ∧ s'.candidates = some (order.map (·.1)) ∧
    order.Perm rainyCandidates.zipIdx ∧
    order.Pairwise fun a b =>
      ¬ (indoorFlag a.1 = .ok false ∧ indoorFlag b.1 = .ok true ∧ b.2 ≤ a.2 + 4) := by
  obtain ⟨popMax, pois, -, -, hoffers, hranked⟩ := indoor_first rainyEnv rainyFound rainyCandidates
    rfl rfl rfl rfl (fun c hc => (rainyCandidates_texts c hc).1)
    (fun m hm => (rainyCandidates_texts _ hm).2 m rfl) ⟨[], rfl⟩ ⟨none, rfl⟩
  obtain ⟨hscored, hrainy⟩ := rainyScores_of_offers hoffers (by decide)
  exact hranked _ _ rfl (Json.iter_orElse_arr _) hscored hrainy

end MapServiceAgent.Native
